import TsStack.Cbor.Canonical

/-
  What the encoder writes is read back: the same value with
  the entries of each map in key order, and with an integer
  for every integral number.
-/

-- Supported Values

open List

namespace TsStack.Cbor

open Traversal

open UnicodeText

def SupportedNumber (bits : UInt64) : Prop :=
  (∃ value, integerOf bits = some value ∧ value.natAbs ≤ MAX_SAFE_INTEGER) ∨
    (integerOf bits = none ∧ isFinite bits = true)

/- The leaves that the encoder takes. -/
def SupportedLeaf : StrictCborValue → Prop
| .integer value => -(2 ^ 64) ≤ value ∧ value < 2 ^ 64
| .number bits => SupportedNumber bits
| .text value => isWellFormed value = true
| .link cid => isCid cid = true
| .array _ => False
| .map _ => False
| _ => True

structure SupportedKeys (entries : CborEntries) : Prop where
  wellFormed : ∀ entry ∈ entries, isWellFormed entry.1 = true
  distinct : (entries.map Prod.fst).Nodup

/- Values whose containers nest no deeper than the fuel. -/
def Supported : Nat → StrictCborValue → Prop
| fuel + 1, .array items => ∀ item ∈ items, Supported fuel item
| fuel + 1, .map entries => SupportedKeys entries ∧ ∀ entry ∈ entries, Supported fuel entry.2
| _, value => SupportedLeaf value

def returnedNumber (bits : UInt64) : StrictCborValue :=
  match integerOf bits with
  | some value => .integer value
  | none => .number bits

def returned : Nat → StrictCborValue → StrictCborValue
| _, .number bits => returnedNumber bits
| fuel + 1, .array items => .array (items.map (returned fuel))
| fuel + 1, .map entries =>
  .map ((sortEntries entries).map fun entry => (entry.1, returned fuel entry.2))
| _, value => value

def NoIntegralFloat : Nat → StrictCborValue → Prop
| _, .number bits => integerOf bits = none
| fuel + 1, .array items => ∀ item ∈ items, NoIntegralFloat fuel item
| fuel + 1, .map entries => ∀ entry ∈ entries, NoIntegralFloat fuel entry.2
| _, _ => True

-- Numbers

variable {bits : UInt64}

theorem encodeNumber_of_none (hNone : integerOf bits = none) :
  encodeNumber bits = encodeFloat bits := by
  unfold encodeNumber
  rw [hNone]

theorem encodeNumber_of_some
  {value : Int} (hSome : integerOf bits = some value) (hSafe : value.natAbs ≤ MAX_SAFE_INTEGER) :
  encodeNumber bits = encodeInteger value := by
  unfold encodeNumber
  rw [hSome]
  exact if_neg (Nat.not_lt.mpr hSafe)

variable {tokens : List UInt8}

theorem encodeLeaf_returnedNumber (hEnc : encodeNumber bits = .ok tokens) :
  encodeLeaf (returnedNumber bits) = .ok tokens := by
  unfold returnedNumber
  cases hInteger : integerOf bits with
  | none =>
    rw [encodeNumber_of_none hInteger] at hEnc
    exact hEnc
  | some value =>
    unfold encodeNumber at hEnc
    rw [hInteger] at hEnc
    simp only at hEnc
    split at hEnc
    · cases hEnc
    · exact hEnc

theorem encodeInteger_supported {value : Int} (hLow : -(2 ^ 64) ≤ value) (hHigh : value < 2 ^ 64) :
  ∃ tokens, encodeInteger value = .ok tokens := by
  by_cases hSign : 0 ≤ value
  · have hNat : (value.toNat : Int) = value := by omega
    refine ⟨header 0 value.toNat, ?_⟩
    rw [← encodeInteger_nat (by omega), hNat]
  · have hNat : -1 - ((-1 - value).toNat : Int) = value := by omega
    refine ⟨header 1 (-1 - value).toNat, ?_⟩
    rw [← encodeInteger_negative (by omega), hNat]

theorem encodeNumber_supported (hBits : SupportedNumber bits) :
  ∃ tokens, encodeNumber bits = .ok tokens := by
  rcases hBits with ⟨value, hSome, hSafe⟩ | ⟨hNone, hFinite⟩
  · rw [encodeNumber_of_some hSome hSafe]
    unfold MAX_SAFE_INTEGER at hSafe
    exact encodeInteger_supported (by omega) (by omega)
  · rw [encodeNumber_of_none hNone]
    exact ⟨_, if_pos hFinite⟩

-- Writing Supported Values

variable {value : StrictCborValue}

theorem encodeValue_of_leaf (hLeaf : SupportedLeaf value) (array : List StrictCborValue → Encoded)
  (map : List (CborText × StrictCborValue) → Encoded) :
  ∃ tokens, encodeWith encodeNumber array map value = .ok tokens := by
  cases value with
  | integer value => exact encodeInteger_supported hLeaf.1 hLeaf.2
  | number bits => exact encodeNumber_supported hLeaf
  | bytes value => exact ⟨_, rfl⟩
  | text value => exact ⟨_, if_pos hLeaf⟩
  | null => exact ⟨_, rfl⟩
  | boolean value =>
    cases value with
    | true => exact ⟨_, rfl⟩
    | false => exact ⟨_, rfl⟩
  | array items => exact hLeaf.elim
  | map entries => exact hLeaf.elim
  | link cid => exact ⟨_, if_pos hLeaf⟩

theorem exists_forall₂
  {α β : Type} {R : α → β → Prop} {xs : List α} (hEach : ∀ x ∈ xs, ∃ y, R x y) :
  ∃ ys, List.Forall₂ R xs ys := by
  induction xs with
  | nil => exact ⟨[], .nil⟩
  | cons x xs ih =>
    rcases forall_mem_cons.mp hEach with ⟨⟨y, hFst⟩, hRest⟩
    rcases ih hRest with ⟨ys, hYs⟩
    exact ⟨y :: ys, .cons hFst hYs⟩

theorem encodeMap_supported
  {encode : StrictCborValue → Encoded} {entries : CborEntries} (hKeys : SupportedKeys entries)
  (hValues : ∀ entry ∈ entries, ∃ tokens, encode entry.2 = .ok tokens) :
  ∃ tokens, encodeMap encode entries = .ok tokens := by
  have hEach : ∀ entry ∈ sortEntries entries, ∃ part, EntryTokens encode entry part := by
    intro entry hEntry
    have hMem := (sortEntries_perm entries).mem_iff.mp hEntry
    rcases hValues entry hMem with ⟨tokens, hTokens⟩
    exact ⟨_, tokens, hTokens, rfl⟩
  rcases exists_forall₂ hEach with ⟨parts, hParts⟩
  exact ⟨_, encodeMap_eq_ok_iff.mpr ⟨hKeys.wellFormed, parts, hParts, rfl⟩⟩

variable (fuel : Nat)

theorem encodeValue_supported (value : StrictCborValue) (hValue : Supported fuel value) :
  ∃ tokens, encodeValue fuel value = .ok tokens := by
  induction fuel generalizing value with
  | zero =>
    have hLeaf : SupportedLeaf value := by
      cases value <;> exact hValue
    exact encodeValue_of_leaf hLeaf _ _
  | succ fuel ih =>
    cases value with
    | array items =>
      rcases exists_forall₂ fun item hItem => ih item (hValue item hItem) with ⟨parts, hParts⟩
      exact ⟨_, encodeArray_eq_ok_iff.mpr ⟨parts, hParts, rfl⟩⟩
    | map entries =>
      exact encodeMap_supported hValue.1 fun entry hEntry => ih entry.2 (hValue.2 entry hEntry)
    | _ =>
      exact encodeValue_of_leaf hValue (encodeArray (encodeValue fuel))
        (encodeMap (encodeValue fuel))

-- What Comes Back

theorem sortEntries_map (f : StrictCborValue → StrictCborValue) (entries : CborEntries) :
  sortEntries (entries.map fun entry => (entry.1, f entry.2)) =
    (sortEntries entries).map fun entry => (entry.1, f entry.2) := by
  symm
  apply map_mergeSort
  intro a _ b _
  rfl

theorem sortEntries_sortEntries (entries : CborEntries) :
  sortEntries (sortEntries entries) = sortEntries entries := by
  apply mergeSort_of_pairwise
  apply pairwise_mergeSort
  · intro a b c
    exact keyLe_trans _ _ _
  · intro a b
    exact keyLe_total _ _

theorem isContainer_returnedNumber (bits : UInt64) : isContainer (returnedNumber bits) = false := by
  unfold returnedNumber
  split
  · rfl
  · rfl

theorem returned_of_leaf (hLeaf : isContainer value = false) (fuel : Nat) :
  isContainer (returned fuel value) = false := by
  cases value with
  | array items => cases hLeaf
  | map entries => cases hLeaf
  | number bits =>
    unfold returned
    exact isContainer_returnedNumber bits
  | _ =>
    unfold returned
    rfl

theorem isContainer_of_supportedLeaf (hLeaf : SupportedLeaf value) : isContainer value = false := by
  cases value with
  | array items => exact hLeaf.elim
  | map entries => exact hLeaf.elim
  | _ => rfl

theorem supported_of_leaf (hLeaf : SupportedLeaf value) (fuel : Nat) : Supported fuel value := by
  cases value with
  | array items => exact hLeaf.elim
  | map entries => exact hLeaf.elim
  | _ => cases fuel <;> exact hLeaf

/- What comes back for a leaf is the same at every depth. -/
theorem returned_leaf (hLeaf : isContainer value = false) (fuel : Nat) :
  returned fuel value = returned 0 value := by
  cases value with
  | array items => cases hLeaf
  | map entries => cases hLeaf
  | _ => cases fuel <;> rfl

theorem encodeWire_returned_leaf {fuel : Nat} (hLeaf : isContainer value = false)
  (hEnc : encodeValue fuel value = .ok tokens) :
  encodeWire fuel (returned fuel value) = .ok tokens := by
  rw [encodeWire_of_leaf (returned_of_leaf hLeaf fuel)]
  cases value with
  | array items => cases hLeaf
  | map entries => cases hLeaf
  | number bits =>
    have hNum : encodeNumber bits = .ok tokens := by
      cases fuel <;> exact hEnc
    unfold returned
    exact encodeLeaf_returnedNumber hNum
  | boolean value =>
    unfold returned
    cases fuel <;> cases value <;> exact hEnc
  | _ =>
    unfold returned
    cases fuel <;> exact hEnc

/- The bytes of a value are those of what comes back. -/
theorem encodeWire_returned (value : StrictCborValue) (tokens : List UInt8)
  (hEnc : encodeValue fuel value = .ok tokens) :
  encodeWire fuel (returned fuel value) = .ok tokens := by
  induction fuel generalizing value tokens with
  | zero =>
    cases value with
    | array items => cases hEnc
    | map entries => cases hEnc
    | _ => exact encodeWire_returned_leaf rfl hEnc
  | succ fuel ih =>
    cases value with
    | array items =>
      rcases encodeArray_eq_ok_iff.mp hEnc with ⟨parts, hParts, rfl⟩
      apply encodeArray_eq_ok_iff.mpr
      refine ⟨parts, ?_, by rw [length_map]⟩
      rw [forall₂_map_left_iff]
      exact hParts.imp fun item part h => ih item part h
    | map entries =>
      rcases encodeMap_eq_ok_iff.mp hEnc with ⟨hKeys, parts, hParts, rfl⟩
      apply encodeMap_eq_ok_iff.mpr
      refine ⟨?_, parts, ?_, ?_⟩
      · rintro _ hEntry
        rcases List.mem_map.mp hEntry with ⟨entry, hMem, rfl⟩
        exact hKeys entry ((sortEntries_perm entries).mem_iff.mp hMem)
      · rw [sortEntries_map, sortEntries_sortEntries, forall₂_map_left_iff]
        apply hParts.imp
        rintro entry part ⟨value, hValue, rfl⟩
        exact ⟨value, ih entry.2 value hValue, rfl⟩
      · rw [length_map, (sortEntries_perm entries).length_eq]
    | _ => exact encodeWire_returned_leaf rfl hEnc

theorem SupportedKeys.nodup {entries : CborEntries} (hKeys : SupportedKeys entries)
  (hSize : ∀ entry ∈ entries, (encodedText entry.1).length < 2 ^ 64) :
  (entries.map (encodedText ·.1)).Nodup := by
  have hInj : ∀ a ∈ entries.map Prod.fst, ∀ b ∈ entries.map Prod.fst,
        encodedText a = encodedText b → a = b := by
    intro a hA b hB hSame
    rcases List.mem_map.mp hA with ⟨left, hLeft, rfl⟩
    rcases List.mem_map.mp hB with ⟨right, hRight, rfl⟩
    exact encodedText_injective (hKeys.wellFormed left hLeft)
      (hKeys.wellFormed right hRight) (hSize left hLeft) hSame
  have hNodup := List.Nodup.map_on hInj hKeys.distinct
  rw [List.map_map] at hNodup
  exact hNodup

theorem ascending_returned
  {encode : StrictCborValue → Encoded} {entries : CborEntries} (hKeys : SupportedKeys entries)
  (hEnc : encodeMap encode entries = .ok tokens) (hLen : tokens.length < 2 ^ 64)
  (f : StrictCborValue → StrictCborValue) :
  Ascending ((sortEntries entries).map fun entry => (entry.1, f entry.2)) := by
  rcases encodeMap_eq_ok_iff.mp hEnc with ⟨-, parts, hParts, rfl⟩
  rw [length_append] at hLen
  have hSize : ∀ entry ∈ entries, (encodedText entry.1).length < 2 ^ 64 := by
    intro entry hEntry
    have hSorted := (sortEntries_perm entries).mem_iff.mpr hEntry
    rcases exists_right hParts hSorted with ⟨part, hPart, value, -, rfl⟩
    have hLe := length_le_of_mem hPart
    rw [length_append] at hLe
    omega
  apply pairwise_map.mpr
  exact ascending_sortEntries (hKeys.nodup hSize)

theorem canonical_returned
  (value : StrictCborValue) (tokens : List UInt8) (hSupported : Supported fuel value)
  (hEnc : encodeValue fuel value = .ok tokens) (hLen : tokens.length < 2 ^ 64) :
  Canonical fuel (returned fuel value) := by
  induction fuel generalizing value tokens with
  | zero =>
    cases value with
    | array items => cases hEnc
    | map entries => cases hEnc
    | _ => exact returned_of_leaf rfl 0
  | succ fuel ih =>
    cases value with
    | array items =>
      rcases encodeArray_eq_ok_iff.mp hEnc with ⟨parts, hParts, rfl⟩
      rw [length_append] at hLen
      intro item hItem
      rcases List.mem_map.mp hItem with ⟨source, hSrc, rfl⟩
      rcases exists_right hParts hSrc with ⟨part, hPart, hOk⟩
      have hLe := length_le_of_mem hPart
      exact ih source part (hSupported source hSrc) hOk (by omega)
    | map entries =>
      refine ⟨ascending_returned hSupported.1 hEnc hLen _, ?_⟩
      rcases encodeMap_eq_ok_iff.mp hEnc with ⟨-, parts, hParts, rfl⟩
      rw [length_append] at hLen
      intro entry hEntry
      rcases List.mem_map.mp hEntry with ⟨source, hSrc, rfl⟩
      rcases exists_right hParts hSrc with ⟨part, hPart, tokens, hOk, rfl⟩
      have hLe := length_le_of_mem hPart
      rw [length_append] at hLe
      have hMem := (sortEntries_perm entries).mem_iff.mp hSrc
      exact ih source.2 tokens (hSupported.2 source hMem) hOk (by omega)
    | _ => exact canonical_of_leaf (returned_of_leaf rfl _) _

-- Round Trips

variable {entries : CborEntries} {bytes : List UInt8}

/- A map whose containers nest within the bound. -/
def SupportedMap (entries : CborEntries) : Prop :=
  SupportedKeys entries ∧ ∀ entry ∈ entries, Supported (STRICT_CBOR_MAX_DEPTH - 1) entry.2

def returnedMap (entries : CborEntries) : CborEntries :=
  (sortEntries entries).map fun entry => (entry.1, returned (STRICT_CBOR_MAX_DEPTH - 1) entry.2)

def NoIntegralFloats (entries : CborEntries) : Prop :=
  ∀ entry ∈ entries, NoIntegralFloat (STRICT_CBOR_MAX_DEPTH - 1) entry.2

theorem encodeStrictCbor_supported (hEnts : SupportedMap entries) :
  ∃ bytes, encodeStrictCbor entries = .ok bytes :=
  encodeMap_supported hEnts.1 fun entry hEntry =>
    encodeValue_supported _ entry.2 (hEnts.2 entry hEntry)

theorem decodeStrictCbor_encodeStrictCbor
  (hEnts : SupportedMap entries) (hEnc : encodeStrictCbor entries = .ok bytes)
  (hLen : bytes.length < 2 ^ 64) : decodeStrictCbor bytes = .ok (returnedMap entries) := by
  have hSupported : Supported (STRICT_CBOR_MAX_DEPTH - 1 + 1) (.map entries) := hEnts
  have hValue : encodeValue (STRICT_CBOR_MAX_DEPTH - 1 + 1) (.map entries) = .ok bytes := hEnc
  apply (decodeStrictCbor_eq_ok_iff hLen).mpr
  constructor
  · exact canonical_returned _ _ _ hSupported hValue hLen
  · exact encodeWire_returned _ _ _ hValue

theorem encodeValue_of_encodeWire
  (value : StrictCborValue) (tokens : List UInt8) (hFloats : NoIntegralFloat fuel value)
  (hWire : encodeWire fuel value = .ok tokens) : encodeValue fuel value = .ok tokens := by
  induction fuel generalizing value tokens with
  | zero =>
    cases value with
    | number bits =>
      have hNum := encodeNumber_of_none hFloats
      exact hNum.trans hWire
    | boolean value => cases value <;> exact hWire
    | _ => exact hWire
  | succ fuel ih =>
    cases value with
    | number bits =>
      have hNum := encodeNumber_of_none hFloats
      exact hNum.trans hWire
    | array items =>
      rcases encodeArray_eq_ok_iff.mp hWire with ⟨parts, hParts, rfl⟩
      apply encodeArray_eq_ok_iff.mpr
      refine ⟨parts, ?_, rfl⟩
      apply imp_of_mem hParts
      intro item hItem part hOk
      exact ih item part (hFloats item hItem) hOk
    | map entries =>
      rcases encodeMap_eq_ok_iff.mp hWire with ⟨hKeys, parts, hParts, rfl⟩
      apply encodeMap_eq_ok_iff.mpr
      refine ⟨hKeys, parts, ?_, rfl⟩
      apply imp_of_mem hParts
      rintro entry hEntry part ⟨value, hOk, rfl⟩
      have hMem := (sortEntries_perm entries).mem_iff.mp hEntry
      exact ⟨value, ih entry.2 value (hFloats entry hMem) hOk, rfl⟩
    | boolean value => cases value <;> exact hWire
    | _ => exact hWire

theorem encodeStrictCbor_decodeStrictCbor
  (hDec : decodeStrictCbor bytes = .ok entries) (hFloats : NoIntegralFloats entries) :
  encodeStrictCbor entries = .ok bytes := by
  have hWire : encodeWire (STRICT_CBOR_MAX_DEPTH - 1 + 1) (.map entries) = .ok bytes :=
    (canonical_of_decodeStrictCbor hDec).2
  have hAll : NoIntegralFloat (STRICT_CBOR_MAX_DEPTH - 1 + 1) (.map entries) := hFloats
  exact encodeValue_of_encodeWire _ _ _ hAll hWire

end TsStack.Cbor
