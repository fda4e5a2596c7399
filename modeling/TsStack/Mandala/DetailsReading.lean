import TsStack.Mandala.DetailFields

/-
  Admin details and the map that they are read from: the map
  holds them, and nothing else.
-/

-- Keys

open List Option

namespace TsStack.MandalaDetails

open Function

open Cbor Mandala

def detailKeys : List CborText :=
  textOf "kind" :: allFields.map Field.name

theorem mem_allFields (field : Field) : field ∈ allFields := by
  cases field <;> decide

theorem nodup_encodedKeys : (detailKeys.map encodedText).Nodup := by
  decide

theorem encodedText_injOn
  {left right : CborText} (hLeft : left ∈ detailKeys) (hRight : right ∈ detailKeys)
  (hSame : encodedText left = encodedText right) : left = right :=
  inj_on_of_nodup_map nodup_encodedKeys hLeft hRight hSame

theorem wellFormed_detailKeys : ∀ key ∈ detailKeys, UnicodeText.isWellFormed key = true := by
  decide

theorem name_injective {left right : Field} (hName : left.name = right.name) : left = right := by
  have hAll : ∀ a ∈ allFields, ∀ b ∈ allFields, a.name = b.name → a = b := by decide
  exact hAll left (mem_allFields left) right (mem_allFields right) hName

theorem name_ne_kind (field : Field) : field.name ≠ textOf "kind" := by
  cases field <;> decide

theorem nodup_keysOf (kind : AdminKind) : (keysOf (SCHEMAS kind)).Nodup := by
  cases kind <;> decide

theorem kindOf_eq_some_iff {text : CborText} {kind : AdminKind} :
  kindOf text = some kind ↔ text = kindName kind := by
  constructor
  · intro hFind
    have hName := find?_some hFind
    exact (beq_iff_eq.mp hName).symm
  · rintro rfl
    cases kind <;> decide

theorem wellFormed_kindName (kind : AdminKind) :
  UnicodeText.isWellFormed (kindName kind) = true := by
  cases kind <;> decide

-- Lookups

variable {map : CborEntries} {key : CborText} {value : StrictCborValue}

theorem mem_of_lookup (hLook : lookup map key = some value) : (key, value) ∈ map := by
  unfold lookup at hLook
  rcases map_eq_some_iff.mp hLook with ⟨entry, hFind, rfl⟩
  have hKey := find?_some hFind
  simp only [beq_iff_eq] at hKey
  rw [← hKey]
  exact mem_of_find?_eq_some hFind

theorem lookup_of_mem (hNodup : (map.map Prod.fst).Nodup) (hMem : (key, value) ∈ map) :
  lookup map key = some value := by
  cases hLook : lookup map key with
  | none =>
    unfold lookup at hLook
    have hNone := map_eq_none_iff.mp hLook
    have hNot := find?_eq_none.mp hNone _ hMem
    simp only [beq_self_eq_true, not_true_eq_false] at hNot
  | some found =>
    have hFound := mem_of_lookup hLook
    have hSame := inj_on_of_nodup_map hNodup hFound hMem rfl
    rw [(Prod.mk.inj hSame).2]

theorem lookup_eq_none (hNone : ∀ entry ∈ map, entry.1 ≠ key) : lookup map key = none := by
  unfold lookup
  rw [map_eq_none_iff, find?_eq_none]
  intro entry hEntry hKey
  exact hNone entry hEntry (beq_iff_eq.mp hKey)

theorem not_mem_of_lookup (hLook : lookup map key = none) : ∀ entry ∈ map, entry.1 ≠ key := by
  unfold lookup at hLook
  have hNone := map_eq_none_iff.mp hLook
  intro entry hEntry hKey
  exact find?_eq_none.mp hNone entry hEntry (beq_iff_eq.mpr hKey)

theorem nodup_keys_of_ascending (hAscending : Ascending map) : (map.map Prod.fst).Nodup := by
  have hEnc : ((map.map Prod.fst).map encodedText).Nodup := by
    rw [List.map_map]
    exact nodup_of_ascending hAscending
  exact hEnc.of_map _

-- Reading Fields

variable {publicKeyHex : Bytes → Option JsString} {schema : KindSchema} {fail : Fail}

def FieldRead (publicKeyHex : Bytes → Option JsString) (map : CborEntries) (schema : KindSchema)
  (field : Field) (found : Option (FieldValue field)) : Prop :=
  (∃ value decoded, lookup map field.name = some value ∧
    field.read publicKeyHex value = some decoded ∧ found = some decoded) ∨
    (lookup map field.name = none ∧ field ∉ schema.required ∧ found = none)

theorem readFieldsFrom_cons {field : Field} {rest : List Field} {before fields : FieldValues}
  (hPre : before field = none) :
  readFieldsFrom publicKeyHex map schema fail (field :: rest) before = .ok fields ↔
    ∃ found, FieldRead publicKeyHex map schema field found ∧
        readFieldsFrom publicKeyHex map schema fail rest
          (update before field found) = .ok fields := by
  have hSame : update before field none = before := by
    rw [← hPre]
    exact update_eq_self field before
  rw [readFieldsFrom]
  unfold FieldRead readField
  cases hLook : lookup map field.name with
  | none =>
    simp only
    by_cases hReq : field ∈ schema.required
    · rw [if_pos (contains_iff_mem.mpr hReq)]
      constructor
      · intro hRun
        cases hRun
      · rintro ⟨found, ⟨_, _, hSome, -⟩ | ⟨-, hNot, -⟩, -⟩
        · cases hSome
        · exact absurd hReq hNot
    · have hNot : ¬schema.required.contains field = true :=
        fun h => hReq (contains_iff_mem.mp h)
      rw [if_neg hNot]
      constructor
      · intro hRun
        refine ⟨none, .inr ⟨trivial, hReq, rfl⟩, ?_⟩
        rw [hSame]
        exact hRun
      · rintro ⟨found, ⟨_, _, hSome, -⟩ | ⟨-, -, rfl⟩, hRun⟩
        · cases hSome
        · rw [hSame] at hRun
          exact hRun
  | some value =>
    simp only
    cases hRead : field.read publicKeyHex value with
    | none =>
      constructor
      · intro hRun
        cases hRun
      · rintro ⟨found, ⟨_, _, hSome, hDec, -⟩ | ⟨hNone, -⟩, -⟩
        · cases hSome
          rw [hRead] at hDec
          cases hDec
        · cases hNone
    | some decoded =>
      constructor
      · intro hRun
        exact ⟨some decoded, .inl ⟨value, decoded, rfl, hRead, rfl⟩, hRun⟩
      · rintro ⟨found, ⟨_, _, hSome, hDec, rfl⟩ | ⟨hNone, -⟩, hRun⟩
        · cases hSome
          rw [hRead] at hDec
          cases hDec
          exact hRun
        · cases hNone

theorem readFieldsFrom_eq_ok_iff
  {list : List Field} {before fields : FieldValues} (hNodup : list.Nodup)
  (hPre : ∀ field ∈ list, before field = none) :
  readFieldsFrom publicKeyHex map schema fail list before = .ok fields ↔
    (∀ field ∈ list, FieldRead publicKeyHex map schema field (fields field)) ∧
      ∀ field, field ∉ list → fields field = before field := by
  induction list generalizing before with
  | nil =>
    constructor
    · intro hRun
      cases hRun
      exact ⟨fun field hField => absurd hField not_mem_nil, fun field _ => rfl⟩
    · rintro ⟨-, hSame⟩
      have hFields : fields = before := by
        funext field
        exact hSame field not_mem_nil
      rw [hFields]
      rfl
  | cons field rest ih =>
    rcases nodup_cons.mp hNodup with ⟨hFresh, hRest⟩
    rcases forall_mem_cons.mp hPre with ⟨hHead, hTail⟩
    have hUpdated : ∀ found : Option (FieldValue field), ∀ other ∈ rest,
          update before field found other = none := by
      intro found other hOther
      have hNe : other ≠ field := by
        rintro rfl
        exact hFresh hOther
      rw [update_of_ne hNe]
      exact hTail other hOther
    rw [readFieldsFrom_cons hHead]
    constructor
    · rintro ⟨found, hFound, hRun⟩
      rcases (ih hRest (hUpdated found)).mp hRun with ⟨hEach, hOther⟩
      have hField : fields field = found := by rw [hOther field hFresh, update_self]
      refine ⟨forall_mem_cons.mpr ⟨?_, hEach⟩, ?_⟩
      · rw [hField]
        exact hFound
      · intro other hNotIn
        rcases not_or.mp (mem_cons.not.mp hNotIn) with ⟨hNe, hNotRest⟩
        rw [hOther other hNotRest, update_of_ne hNe]
    · rintro ⟨hEach, hOther⟩
      rcases forall_mem_cons.mp hEach with ⟨hFst, hMore⟩
      refine ⟨fields field, hFst, ?_⟩
      apply (ih hRest (hUpdated _)).mpr
      refine ⟨hMore, ?_⟩
      intro other hNotRest
      by_cases hSame : other = field
      · subst hSame
        rw [update_self]
      · rw [update_of_ne hSame]
        exact hOther other fun h => (mem_cons.mp h).elim hSame hNotRest

theorem readFields_eq_ok_iff {kind : AdminKind} {fields : FieldValues} :
  readFields publicKeyHex map (SCHEMAS kind) fail = .ok fields ↔ (∀ field ∈ keysOf (SCHEMAS kind),
      FieldRead publicKeyHex map (SCHEMAS kind) field (fields field)) ∧
      ∀ field, field ∉ keysOf (SCHEMAS kind) → fields field = none :=
  readFieldsFrom_eq_ok_iff (nodup_keysOf kind) fun _ _ => rfl

-- Reading a Map

variable {allowed : List CborText}

theorem readKind_eq_ok_iff {kind : AdminKind} : readKind map allowed fail = .ok kind ↔
    lookup map (textOf "kind") = some (.text (kindName kind)) ∧ kindName kind ∈ allowed := by
  unfold readKind
  cases hLook : lookup map (textOf "kind") with
  | none =>
    constructor
    · intro hRun
      cases hRun
    · rintro ⟨hSome, -⟩
      cases hSome
  | some value =>
    cases value with
    | text text =>
      simp only [some.injEq, StrictCborValue.text.injEq]
      cases hKind : kindOf text with
      | none =>
        constructor
        · intro hRun
          cases hRun
        · rintro ⟨hText, -⟩
          rw [kindOf_eq_some_iff.mpr hText] at hKind
          cases hKind
      | some known =>
        have hName := kindOf_eq_some_iff.mp hKind
        subst hName
        simp only
        by_cases hAllowed : kindName known ∈ allowed
        · rw [if_pos hAllowed]
          constructor
          · intro hRun
            cases hRun
            exact ⟨rfl, hAllowed⟩
          · rintro ⟨hText, -⟩
            have hSame := kindOf_eq_some_iff.mpr hText
            rw [hKind] at hSame
            rw [some.inj hSame]
        · rw [if_neg hAllowed]
          constructor
          · intro hRun
            cases hRun
          · rintro ⟨hText, hIn⟩
            rw [← hText] at hIn
            exact absurd hIn hAllowed
    | _ =>
      constructor
      · intro hRun
        cases hRun
      · rintro ⟨hSome, -⟩
        cases hSome

theorem firstInCborOrder_eq_none_iff (keys : List CborText) :
  firstInCborOrder keys = none ↔ keys = [] := by
  unfold firstInCborOrder
  rw [head?_eq_none_iff, ← length_eq_zero_iff,
    length_mergeSort, length_eq_zero_iff]

theorem rejectUnknownKeys_eq_ok_iff {schema : KindSchema} :
  rejectUnknownKeys map schema fail = .ok () ↔ ∀ entry ∈ map, entry.1 ∈ knownKeys schema := by
  unfold rejectUnknownKeys
  have hNone :
      firstInCborOrder ((map.map Prod.fst).filter fun key =>
          !(knownKeys schema).contains key) = none ↔
        ∀ entry ∈ map, entry.1 ∈ knownKeys schema := by
    rw [firstInCborOrder_eq_none_iff, filter_eq_nil_iff]
    simp only [List.forall_mem_map, Bool.not_eq_true', Bool.not_eq_false, contains_iff_mem]
  rw [← hNone]
  split
  · rename_i unknown hSome
    rw [hSome]
    constructor
    · intro hRun
      cases hRun
    · intro hRun
      cases hRun
  · rename_i hEmpty
    exact ⟨fun _ => hEmpty, fun _ => rfl⟩

def readDetails
  (publicKeyHex : Bytes → Option JsString) (map : CborEntries) (allowed : List CborText)
  (fail : Fail) : Except MandalaReject AdminDetails := do
  let kind ← readKind map allowed fail
  let schema := SCHEMAS kind
  rejectUnknownKeys map schema fail
  let fields ← readFields publicKeyHex map schema fail
  return ⟨kind, fields⟩

structure ValidDetails (publicKeyHex : Bytes → Option JsString) (allowed : List CborText)
  (d : AdminDetails) : Prop where
  kind : kindName d.kind ∈ allowed
  known : ∀ field, field ∉ keysOf (SCHEMAS d.kind) → d.fields field = none
  required : ∀ field ∈ (SCHEMAS d.kind).required, d.fields field ≠ none
  valid : ∀ field decoded, d.fields field = some decoded → ValidField publicKeyHex field decoded

structure Holds
  (publicKeyHex : Bytes → Option JsString) (map : CborEntries) (d : AdminDetails) : Prop where
  kind : lookup map (textOf "kind") = some (.text (kindName d.kind))
  present : ∀ field decoded, d.fields field = some decoded →
    ∃ value, lookup map field.name = some value ∧ field.read publicKeyHex value = some decoded
  absent : ∀ field, d.fields field = none → lookup map field.name = none
  known : ∀ entry ∈ map, entry.1 ∈ detailKeys

theorem name_mem_knownKeys {field : Field} :
  field.name ∈ knownKeys schema ↔ field ∈ keysOf schema := by
  unfold knownKeys
  rw [mem_cons, List.mem_map]
  constructor
  · rintro (hKind | ⟨other, hOther, hName⟩)
    · exact absurd hKind (name_ne_kind field)
    · rw [name_injective hName] at hOther
      exact hOther
  · intro hField
    exact .inr ⟨field, hField, rfl⟩

theorem mem_detailKeys {key : CborText} :
  key ∈ detailKeys ↔ key = textOf "kind" ∨ ∃ field : Field, key = field.name := by
  unfold detailKeys
  rw [mem_cons, List.mem_map]
  constructor
  · rintro (hKind | ⟨field, -, hName⟩)
    · exact .inl hKind
    · exact .inr ⟨field, hName.symm⟩
  · rintro (hKind | ⟨field, hName⟩)
    · exact .inl hKind
    · exact .inr ⟨field, mem_allFields field, hName.symm⟩

theorem readDetails_eq_ok_iff {d : AdminDetails} :
  readDetails publicKeyHex map allowed fail = .ok d ↔ readKind map allowed fail = .ok d.kind ∧
      rejectUnknownKeys map (SCHEMAS d.kind) fail = .ok () ∧
      readFields publicKeyHex map (SCHEMAS d.kind) fail = .ok d.fields := by
  unfold readDetails
  rw [bind_eq_ok_iff]
  constructor
  · rintro ⟨kind, hKind, hRun⟩
    rcases bind_eq_ok_iff.mp hRun with ⟨⟨⟩, hKnown, hRest⟩
    rcases bind_eq_ok_iff.mp hRest with ⟨fields, hFields, hPure⟩
    cases hPure
    exact ⟨hKind, hKnown, hFields⟩
  · rintro ⟨hKind, hKnown, hFields⟩
    refine ⟨d.kind, hKind, ?_⟩
    simp only [hKnown, hFields, ok_bind]
    rfl

variable {d : AdminDetails}

theorem readDetails_of_holds
  (hHold : Holds publicKeyHex map d) (hValid : ValidDetails publicKeyHex allowed d) :
  readDetails publicKeyHex map allowed fail = .ok d := by
  apply readDetails_eq_ok_iff.mpr
  refine ⟨readKind_eq_ok_iff.mpr ⟨hHold.kind, hValid.kind⟩, rejectUnknownKeys_eq_ok_iff.mpr ?_,
    readFields_eq_ok_iff.mpr ⟨?_, hValid.known⟩⟩
  · intro entry hEntry
    rcases mem_detailKeys.mp (hHold.known entry hEntry) with hKind | ⟨field, hName⟩
    · rw [hKind]
      exact mem_cons_self
    · rw [hName, name_mem_knownKeys]
      by_contra hNot
      have hAbsent := hHold.absent field (hValid.known field hNot)
      exact not_mem_of_lookup hAbsent entry hEntry hName
  · intro field _
    cases hField : d.fields field with
    | none =>
      refine .inr ⟨hHold.absent field hField, ?_, rfl⟩
      intro hReq
      exact hValid.required field hReq hField
    | some decoded =>
      rcases hHold.present field decoded hField with ⟨value, hLook, hRead⟩
      exact .inl ⟨value, decoded, hLook, hRead, rfl⟩

theorem holds_of_readDetails
  (hText : ∀ entry ∈ map, ∀ text, entry.2 = .text text → UnicodeText.isWellFormed text = true)
  (hRead : readDetails publicKeyHex map allowed fail = .ok d) :
  Holds publicKeyHex map d ∧ ValidDetails publicKeyHex allowed d := by
  rcases readDetails_eq_ok_iff.mp hRead with ⟨hKind, hReject, hFields⟩
  rcases readKind_eq_ok_iff.mp hKind with ⟨hLook, hAllowed⟩
  have hKnown := rejectUnknownKeys_eq_ok_iff.mp hReject
  rcases readFields_eq_ok_iff.mp hFields with ⟨hEach, hOther⟩
  have hPresent : ∀ field decoded, d.fields field = some decoded →
        ∃ value, lookup map field.name = some value ∧
          field.read publicKeyHex value = some decoded := by
    intro field decoded hField
    by_cases hKey : field ∈ keysOf (SCHEMAS d.kind)
    · rcases hEach field hKey with ⟨value, found, hSome, hValue, hFound⟩ | ⟨-, -, hNone⟩
      · rw [hField] at hFound
        rw [some.inj hFound]
        exact ⟨value, hSome, hValue⟩
      · rw [hField] at hNone
        cases hNone
    · rw [hOther field hKey] at hField
      cases hField
  refine ⟨⟨hLook, hPresent, ?_, ?_⟩, hAllowed, hOther, ?_, ?_⟩
  · intro field hField
    by_cases hKey : field ∈ keysOf (SCHEMAS d.kind)
    · rcases hEach field hKey with ⟨value, found, -, -, hFound⟩ | ⟨hNone, -, -⟩
      · rw [hField] at hFound
        cases hFound
      · exact hNone
    · apply lookup_eq_none
      intro entry hEntry hName
      have hIn := hKnown entry hEntry
      rw [hName, name_mem_knownKeys] at hIn
      exact hKey hIn
  · intro entry hEntry
    apply mem_detailKeys.mpr
    rcases mem_cons.mp (hKnown entry hEntry) with hName | hName
    · exact .inl hName
    · rcases List.mem_map.mp hName with ⟨field, -, hField⟩
      exact .inr ⟨field, hField.symm⟩
  · intro field hReq hField
    have hKey : field ∈ keysOf (SCHEMAS d.kind) :=
      mem_append_left _ (mem_append_left _ hReq)
    rcases hEach field hKey with ⟨value, found, -, -, hFound⟩ | ⟨-, hNot, -⟩
    · rw [hField] at hFound
      cases hFound
    · exact hNot hReq
  · intro field decoded hField
    rcases hPresent field decoded hField with ⟨value, hSome, hValue⟩
    exact valid_of_read (hText (field.name, value) (mem_of_lookup hSome)) hValue

theorem kindName_injective {left right : AdminKind} (hName : kindName left = kindName right) :
  left = right := by
  have hLeft := kindOf_eq_some_iff.mpr hName
  have hSame : kindOf (kindName left) = some left := kindOf_eq_some_iff.mpr rfl
  rw [hLeft] at hSame
  exact (some.inj hSame).symm

theorem details_of_holds
  {e : AdminDetails} (hFst : Holds publicKeyHex map d) (hSnd : Holds publicKeyHex map e) :
  d = e := by
  have hKind : d.kind = e.kind := by
    have hLook := hFst.kind
    rw [hSnd.kind] at hLook
    have hText := some.inj hLook
    exact (kindName_injective (StrictCborValue.text.inj hText)).symm
  have hFields : d.fields = e.fields := by
    funext field
    cases hLeft : d.fields field with
    | none =>
      cases hRight : e.fields field with
      | none => rfl
      | some decoded =>
        rcases hSnd.present field decoded hRight with ⟨value, hLook, -⟩
        rw [hFst.absent field hLeft] at hLook
        cases hLook
    | some decoded =>
      rcases hFst.present field decoded hLeft with ⟨value, hLook, hRead⟩
      cases hRight : e.fields field with
      | none =>
        rw [hSnd.absent field hRight] at hLook
        cases hLook
      | some other =>
        rcases hSnd.present field other hRight with ⟨same, hSame, hAgain⟩
        rw [hSame] at hLook
        rw [some.inj hLook, hRead] at hAgain
        exact hAgain
  cases d
  cases e
  simp only at hKind hFields
  rw [hKind, hFields]

theorem eq_of_holds {other : CborEntries} (hMap : Ascending map) (hOther : Ascending other)
  (hHold : Holds publicKeyHex map d) (hHeld : Holds publicKeyHex other d) : map = other := by
  have hSub : ∀ left right : CborEntries, Ascending left →
      Holds publicKeyHex left d → Holds publicKeyHex right d → ∀ entry ∈ left, entry ∈ right := by
    rintro left right hLeft hFst hSnd ⟨key, value⟩ hEntry
    have hLook := lookup_of_mem (nodup_keys_of_ascending hLeft) hEntry
    rcases mem_detailKeys.mp (hFst.known _ hEntry) with hKind | ⟨field, hName⟩
    · simp only at hKind
      subst hKind
      rw [hFst.kind] at hLook
      rw [← some.inj hLook]
      exact mem_of_lookup hSnd.kind
    · simp only at hName
      subst hName
      cases hField : d.fields field with
      | none =>
        rw [hFst.absent field hField] at hLook
        cases hLook
      | some decoded =>
        rcases hFst.present field decoded hField with ⟨found, hFound, hRead⟩
        rcases hSnd.present field decoded hField with ⟨same, hSame, hAgain⟩
        rw [hFound] at hLook
        rw [← some.inj hLook, read_injective hRead hAgain]
        exact mem_of_lookup hSame
  apply eq_of_ascending hMap hOther
  intro entry
  exact ⟨hSub map other hMap hHold hHeld entry, hSub other map hOther hHeld hHold entry⟩

end TsStack.MandalaDetails
