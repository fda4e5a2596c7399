import TsStack.Auth.AuthMessage

/-
  The binary JSON of `remoting/BinaryJson.ts`: byte arrays in
  JSON as tagged objects, and objects that look like one as
  escapes.

  `JSON.parse` undoes `JSON.stringify`, so a text is modeled
  by the value that is written.  Atoms are null, booleans and
  numbers, of any type, and members are in the order of
  `Object.entries`.  A walk is given the depth it may reach;
  the loops with a stack are modeled by their recursion.
-/

-- Values

open List Option

namespace TsStack.Wallet.BinaryJson

open Auth

inductive JsonTree (ν β : Type) where
| atom (value : ν)
| string (text : JsText)
| array (items : List (JsonTree ν β))
| object (members : List (JsText × JsonTree ν β))
| binary (data : β)

/- The values that JSON has. -/
abbrev JsonValue (ν : Type) := JsonTree ν Empty

/- The values that calls have, which may hold a `Uint8Array`. -/
abbrev RpcValue (ν : Type) := JsonTree ν (List UInt8)

def TAG : JsText := Json.text "$bsvBinary"

def ESCAPED : JsText := Json.text "escaped"

def BINARY_ENCODING : JsText := Json.text "base64"

def dataKey : JsText := Json.text "data"

def entriesKey : JsText := Json.text "entries"

section

variable {α ν β γ : Type}

def valueOf (members : List (JsText × α)) (key : JsText) : Option α :=
  (members.find? (·.1 = key)).map Prod.snd

/- `Object.fromEntries`: a key stands where it came first, with its last value. -/
def fromEntries : List (JsText × α) → List (JsText × α)
| [] => []
| (key, value) :: entries =>
  (key, (valueOf entries.reverse key).getD value) :: (fromEntries entries).filter (·.1 ≠ key)

def textAt (members : List (JsText × JsonTree ν β)) (key : JsText) : Option JsText :=
  match valueOf members key with
  | some (.string text) => some text
  | _ => none

def itemsAt (members : List (JsText × JsonTree ν β)) (key : JsText) :
  Option (List (JsonTree ν β)) :=
  match valueOf members key with
  | some (.array items) => some items
  | _ => none

/- `isTaggedBinary`, with the data. -/
def taggedData : JsonTree ν β → Option JsText
| .object members =>
  if textAt members TAG = some BINARY_ENCODING ∧ members.length = 2 then textAt members dataKey
  else none
| _ => none

def entryOf : JsonTree ν β → Option (JsText × JsonTree ν β)
| .array [.string key, value] => some (key, value)
| _ => none

/- `isEscapedJson`, with the entries. -/
def escapedEntries : JsonTree ν β → Option (List (JsText × JsonTree ν β))
| .object members =>
  if textAt members TAG = some ESCAPED ∧ members.length = 2 then
    (itemsAt members entriesKey).bind (·.mapM entryOf)
  else none
| _ => none

def isBufferJson (members : List (JsText × JsonTree ν β)) : Bool :=
  textAt members (Json.text "type") = some (Json.text "Buffer") ∧
    (itemsAt members dataKey).isSome ∧ members.length = 2

def entryArray (entry : JsText × JsonTree ν β) : JsonTree ν β :=
  .array [.string entry.1, entry.2]

def escapeJsonObject (entries : List (JsText × JsonTree ν β)) : JsonTree ν β :=
  .object [(TAG, .string ESCAPED), (entriesKey, .array (entries.map entryArray))]

-- Encoding and Decoding

def mapMembers {δ : Type} (f : α → Option δ) (members : List (JsText × α)) :
  Option (List (JsText × δ)) :=
  members.mapM fun member => (f member.2).map (member.1, ·)

def withChildren (binary : β → Option (JsonTree ν γ)) (f : JsonTree ν β → Option (JsonTree ν γ)) :
  JsonTree ν β → Option (JsonTree ν γ)
| .atom value => some (.atom value)
| .string text => some (.string text)
| .array items => (items.mapM f).map .array
| .object members => (mapMembers f members).map .object
| .binary data => binary data

def toBase64 (data : List UInt8) : JsText :=
  Base64.encodePadded base64Alphabet padding data

def fromBase64 (base64 : JsText) : Option (List UInt8) :=
  Base64.decodePadded base64Alphabet padding base64

def binaryJsonReplacer : RpcValue ν → RpcValue ν
| .binary data => .object [(TAG, .string BINARY_ENCODING), (dataKey, .string (toBase64 data))]
| .object members =>
  if isBufferJson members ∨ (taggedData (.object members)).isSome ∨
      (escapedEntries (.object members)).isSome then
    escapeJsonObject members
  else .object members
| value => value

/- `JSON.stringify` calls the replacer before it writes the children. -/
def stringifyJsonRpc : Nat → RpcValue ν → Option (JsonValue ν)
| 0, _ => none
| depth + 1, value =>
  withChildren (fun _ => none) (stringifyJsonRpc depth) (binaryJsonReplacer value)

def binaryJsonReviver (value : RpcValue ν) : Option (RpcValue ν) :=
  match taggedData value with
  | some data => (fromBase64 data).map .binary
  | none =>
    match escapedEntries value with
    | some entries => some (.object (fromEntries entries))
    | none => some value

/- The reviver comes after the children. -/
def parseJsonRpc : Nat → JsonValue ν → Option (RpcValue ν)
| 0, _ => none
| depth + 1, value =>
  (withChildren Empty.elim (parseJsonRpc depth) value).bind binaryJsonReviver

/- The children of an escape are those of the object it restores. -/
def decodeBinaryJsonValue : Nat → JsonValue ν → Option (RpcValue ν)
| 0, _ => none
| depth + 1, value =>
  match taggedData value with
  | some data => (fromBase64 data).map .binary
  | none =>
    withChildren Empty.elim (decodeBinaryJsonValue depth)
      (((escapedEntries value).map fun entries => .object (fromEntries entries)).getD value)

end

-- Members

section

variable
    {α β ν : Type} {f : α → Option β} {members : List (JsText × α)} {images : List (JsText × β)}

theorem mapMembers_cons {key : JsText} {value : α} :
  mapMembers f ((key, value) :: members) = some images ↔ ∃ image rest, f value = some image ∧
    mapMembers f members = some rest ∧ images = (key, image) :: rest := by
  unfold mapMembers
  rw [mapM_cons]
  cases f value <;> simp [bind_eq_some_iff]
  exact ⟨fun ⟨rest, hRest, hEq⟩ => ⟨rest, hRest, hEq.symm⟩,
    fun ⟨rest, hRest, hEq⟩ => ⟨rest, hRest, hEq.symm⟩⟩

theorem mapMembers_pair {first second : JsText} {value other : α} {image next : β}
  (hValue : f value = some image) (hOther : f other = some next) :
  mapMembers f [(first, value), (second, other)] = some [(first, image), (second, next)] := by
  simp [mapMembers, mapM_cons, hValue, hOther]

theorem keys_of_mapMembers (hMap : mapMembers f members = some images) :
  images.map Prod.fst = members.map Prod.fst := by
  induction members generalizing images with
  | nil =>
    cases hMap
    rfl
  | cons member members ih =>
    rcases mapMembers_cons.mp hMap with ⟨image, rest, _, hRest, rfl⟩
    rw [map_cons, map_cons, ih hRest]

theorem length_of_mapMembers (hMap : mapMembers f members = some images) :
  images.length = members.length := by
  simpa using congrArg length (keys_of_mapMembers hMap)

theorem valueOf_of_mapMembers {key : JsText} {value : α} (hMap : mapMembers f members = some images)
  (hValue : valueOf members key = some value) :
  ∃ image, valueOf images key = some image ∧ f value = some image := by
  induction members generalizing images with
  | nil => cases hValue
  | cons member members ih =>
    rcases mapMembers_cons.mp hMap with ⟨first, rest, hFst, hRest, rfl⟩
    unfold valueOf at hValue ih ⊢
    by_cases hKey : member.1 = key
    · simp only [find?_cons, hKey, decide_true, map_some, Option.some.injEq] at hValue ⊢
      exact ⟨first, rfl, hValue ▸ hFst⟩
    · simp only [find?_cons, hKey, decide_false] at hValue ⊢
      exact ih hRest hValue

theorem fromEntries_of_nodup (hKeys : (members.map Prod.fst).Nodup) :
  fromEntries members = members := by
  induction members with
  | nil => rfl
  | cons member members ih =>
    rw [map_cons, nodup_cons] at hKeys
    have hOth : ∀ other ∈ members, other.1 ≠ member.1 := by
      intro other hOther hEq
      exact hKeys.1 (hEq ▸ List.mem_map_of_mem hOther)
    have hNone : valueOf members.reverse member.1 = none := by simpa [valueOf] using hOth
    rw [fromEntries, ih hKeys.2, hNone, filter_eq_self.mpr (by simpa using hOth)]
    rfl

theorem mapM_entryOf (entries : List (JsText × JsonTree ν β)) :
  (entries.map entryArray).mapM entryOf = some entries := by
  rw [mapM_map]
  have hPure := mapM_pure (m := Option) (l := entries) (f := id)
  rw [List.map_id] at hPure
  exact hPure

theorem taggedData_escape (entries : List (JsText × JsonTree ν β)) :
  taggedData (escapeJsonObject entries) = none :=
  rfl

theorem escapedEntries_escape (entries : List (JsText × JsonTree ν β)) :
  escapedEntries (escapeJsonObject entries) = some entries :=
  mapM_entryOf entries

/- Entries of an escape are walked over as members are. -/
theorem mapM_entryArray {γ : Type} {f g : JsonTree ν β → Option (JsonTree ν γ)}
  (hEntry : ∀ entry, g (entryArray entry) =
    (f entry.2).map fun image => entryArray (entry.1, image))
  (entries : List (JsText × JsonTree ν β)) :
  (entries.map entryArray).mapM g = (mapMembers f entries).map (·.map entryArray) := by
  induction entries with
  | nil => rfl
  | cons entry entries ih =>
    rw [mapMembers] at ih ⊢
    rw [map_cons, mapM_cons, mapM_cons, hEntry, ih]
    cases f entry.2 with
    | none => rfl
    | some image => cases entries.mapM fun entry => (f entry.2).map (entry.1, ·) <;> rfl

end

-- Markers

section

variable
    {ν : Type} {depth : Nat} {value : RpcValue ν} {json : JsonValue ν}
    {members : List (JsText × RpcValue ν)} {jsons : List (JsText × JsonValue ν)} {key : JsText}

theorem array_of_parse {items : List (JsonValue ν)}
  (hParse : parseJsonRpc depth (.array items) = some value) :
  ∃ inner after, depth = inner + 1 ∧ items.mapM (parseJsonRpc inner) = some after ∧
    value = .array after := by
  cases depth with
  | zero => cases hParse
  | succ depth =>
    rcases bind_eq_some_iff.mp hParse with ⟨array, hArray, hSame⟩
    rcases map_eq_some_iff.mp hArray with ⟨after, hAfter, rfl⟩
    exact ⟨depth, after, rfl, hAfter, (Option.some.inj hSame).symm⟩

section

variable (hMap : mapMembers (parseJsonRpc depth) jsons = some members)

include hMap

theorem textAt_of_parse {text : JsText} (hText : textAt jsons key = some text) :
  textAt members key = some text := by
  unfold textAt at hText
  split at hText
  · rename_i found hValue
    cases hText
    rcases valueOf_of_mapMembers hMap hValue with ⟨value, hMember, hParse⟩
    cases depth <;> cases hParse
    rw [textAt, hMember]
  · cases hText

theorem taggedData_of_parse (hTagged : (taggedData (.object jsons)).isSome = true) :
  (taggedData (.object members)).isSome = true := by
  unfold taggedData at hTagged ⊢
  dsimp only at hTagged ⊢
  split_ifs at hTagged with hMarker
  · rcases isSome_iff_exists.mp hTagged with ⟨data, hData⟩
    rw [← length_of_mapMembers hMap] at hMarker
    rw [if_pos ⟨textAt_of_parse hMap hMarker.1, hMarker.2⟩, textAt_of_parse hMap hData]
    rfl
  · cases hTagged

end

theorem entryOf_of_parse (hParse : parseJsonRpc depth json = some value)
  (hEntry : (entryOf json).isSome = true) : (entryOf value).isSome = true := by
  unfold entryOf at hEntry
  split at hEntry
  · rcases array_of_parse hParse with ⟨inner, after, _, hAfter, rfl⟩
    simp only [mapM_cons, mapM_nil, bind_eq_bind,
      bind_eq_some_iff] at hAfter
    rcases hAfter with ⟨key, hKey, items, ⟨item, _, rest, hRest, hItems⟩, hAfter⟩
    cases inner <;> cases hKey
    cases hRest
    cases hItems
    cases hAfter
    rfl
  · cases hEntry

theorem mapM_entryOf_of_parse {items : List (JsonValue ν)} {after : List (RpcValue ν)}
  (hMap : items.mapM (parseJsonRpc depth) = some after)
  (hEnts : (items.mapM entryOf).isSome = true) : (after.mapM entryOf).isSome = true := by
  induction items generalizing after with
  | nil =>
    cases hMap
    rfl
  | cons json items ih =>
    simp only [mapM_cons, bind_eq_bind, bind_eq_some_iff] at hMap
    rcases hMap with ⟨value, hValue, rest, hRest, hAfter⟩
    cases hAfter
    simp only [mapM_cons, isSome_iff_exists, bind_eq_bind,
      bind_eq_some_iff] at hEnts ih ⊢
    rcases hEnts with ⟨_, entry, hEntry, entries, hEnts, _⟩
    rcases isSome_iff_exists.mp
      (entryOf_of_parse hValue (by rw [hEntry]; rfl)) with ⟨found, hFound⟩
    rcases ih hRest ⟨entries, hEnts⟩ with ⟨all, hAll⟩
    exact ⟨found :: all, found, hFound, all, hAll, rfl⟩

theorem escapedEntries_of_parse (hMap : mapMembers (parseJsonRpc depth) jsons = some members)
  (hEscaped : (escapedEntries (.object jsons)).isSome = true) :
  (escapedEntries (.object members)).isSome = true := by
  unfold escapedEntries at hEscaped ⊢
  dsimp only at hEscaped ⊢
  split_ifs at hEscaped with hMarker
  · rw [← length_of_mapMembers hMap] at hMarker
    rw [if_pos ⟨textAt_of_parse hMap hMarker.1, hMarker.2⟩]
    unfold itemsAt at hEscaped ⊢
    split at hEscaped
    · rename_i items hValue
      rcases valueOf_of_mapMembers hMap hValue with ⟨value, hMember, hParse⟩
      rcases array_of_parse hParse with ⟨inner, after, _, hAfter, rfl⟩
      rw [hMember]
      exact mapM_entryOf_of_parse hAfter hEscaped
    · cases hEscaped
  · cases hEscaped

end

-- Codes

/- A tree: the keys of an object are distinct. -/
inductive WellFormed {ν : Type} : RpcValue ν → Prop where
| atom (value : ν) : WellFormed (.atom value)
| string (text : JsText) : WellFormed (.string text)
| binary (data : List UInt8) : WellFormed (.binary data)
| array {items : List (RpcValue ν)} (hItems : ∀ item ∈ items, WellFormed item) :
    WellFormed (.array items)
| object {members : List (JsText × RpcValue ν)} (hKeys : (members.map Prod.fst).Nodup)
    (hMembers : ∀ member ∈ members, WellFormed member.2) :
    WellFormed (.object members)

variable
    {ν : Type} {depth : Nat} {value : RpcValue ν} {json : JsonValue ν}
    {members : List (JsText × RpcValue ν)} {jsons : List (JsText × JsonValue ν)}

/- A value with its code: encoded to it, and decoded from it either way. -/
def Codes (depth : Nat) (value : RpcValue ν) (json : JsonValue ν) : Prop :=
  stringifyJsonRpc depth value = some json ∧ parseJsonRpc depth json = some value ∧
    decodeBinaryJsonValue depth json = some value

theorem exists_mapM {X Y : Type} {f : Nat → X → Option Y} {g h : Nat → Y → Option X}
  {xs : List X} (hEach : ∀ x ∈ xs, ∃ y bound, ∀ depth, bound ≤ depth →
    f depth x = some y ∧ g depth y = some x ∧ h depth y = some x) :
  ∃ ys bound, ∀ depth, bound ≤ depth → xs.mapM (f depth) = some ys ∧
    ys.mapM (g depth) = some xs ∧ ys.mapM (h depth) = some xs := by
  induction xs with
  | nil => exact ⟨[], 0, fun _ _ => ⟨rfl, rfl, rfl⟩⟩
  | cons x xs ih =>
    rcases forall_mem_cons.mp hEach with ⟨⟨y, first, hFst⟩, hRest⟩
    rcases ih hRest with ⟨ys, rest, hRest⟩
    refine ⟨y :: ys, max first rest, fun depth hDepth => ?_⟩
    rcases hFst depth (by omega) with ⟨hWrite, hRead, hOther⟩
    rcases hRest depth (by omega) with ⟨hWrites, hReads, hOth⟩
    simp [mapM_cons, hWrite, hRead, hOther, hWrites, hReads, hOth]

theorem codes_binary (depth : Nat) (data : List UInt8) : Codes (ν := ν) (depth + 2) (.binary data)
    (.object [(TAG, .string BINARY_ENCODING), (dataKey, .string (toBase64 data))]) := by
  have hData : fromBase64 (toBase64 data) = some data :=
    Base64.decodePadded_encodePadded (by decide +kernel) (by decide +kernel) (by decide +kernel)
      data
  have hValue := congrArg (Option.map (JsonTree.binary (ν := ν))) hData
  exact ⟨rfl, hValue, hValue⟩

theorem codes_array {items : List (RpcValue ν)} {jsons : List (JsonValue ν)}
  (hWrite : items.mapM (stringifyJsonRpc depth) = some jsons)
  (hRead : jsons.mapM (parseJsonRpc depth) = some items)
  (hDecode : jsons.mapM (decodeBinaryJsonValue depth) = some items) :
  Codes (depth + 1) (.array items) (.array jsons) :=
  ⟨congrArg (Option.map JsonTree.array) hWrite,
    congrArg (fun items => (items.map JsonTree.array).bind binaryJsonReviver) hRead,
    congrArg (Option.map JsonTree.array) hDecode⟩

theorem stringifyJsonRpc_entryArray (depth : Nat) (entry : JsText × RpcValue ν) :
  stringifyJsonRpc (depth + 2) (entryArray entry) =
    (stringifyJsonRpc (depth + 1) entry.2).map fun image => entryArray (entry.1, image) := by
  change (([.string entry.1, entry.2] : List (RpcValue ν)).mapM
    (stringifyJsonRpc (depth + 1))).map JsonTree.array = _
  rw [mapM_cons, mapM_cons]
  cases stringifyJsonRpc (depth + 1) entry.2 <;> rfl

theorem parseJsonRpc_entryArray (depth : Nat) (entry : JsText × JsonValue ν) :
  parseJsonRpc (depth + 2) (entryArray entry) =
    (parseJsonRpc (depth + 1) entry.2).map fun image => entryArray (entry.1, image) := by
  change ((([.string entry.1, entry.2] : List (JsonValue ν)).mapM
    (parseJsonRpc (depth + 1))).map JsonTree.array).bind binaryJsonReviver = _
  rw [mapM_cons, mapM_cons]
  cases parseJsonRpc (depth + 1) entry.2 <;> rfl

/- An object that looks like a marker is restored from its escape. -/
theorem codes_escape (hKeys : (members.map Prod.fst).Nodup)
  (hWrite : mapMembers (stringifyJsonRpc (depth + 1)) members = some jsons)
  (hRead : mapMembers (parseJsonRpc (depth + 1)) jsons = some members)
  (hDecode : mapMembers (decodeBinaryJsonValue (depth + 3)) jsons = some members)
  (hMarker : binaryJsonReplacer (.object members) = escapeJsonObject members) :
  Codes (depth + 4) (.object members) (escapeJsonObject jsons) := by
  -- A member stands three levels down: in an entry, in the array of entries.
  refine ⟨?_, ?_, ?_⟩
  · have hEnts := mapM_entryArray (stringifyJsonRpc_entryArray depth) members
    rw [hWrite] at hEnts
    have hArray : stringifyJsonRpc (depth + 3) (.array (members.map entryArray)) =
      some (.array (jsons.map entryArray)) := congrArg (Option.map JsonTree.array) hEnts
    have hTag : stringifyJsonRpc (depth + 3) (.string ESCAPED : RpcValue ν) =
      some (.string ESCAPED) := rfl
    rw [stringifyJsonRpc, hMarker, escapeJsonObject, withChildren, mapMembers_pair hTag hArray]
    rfl
  · have hEnts := mapM_entryArray (parseJsonRpc_entryArray depth) jsons
    rw [hRead] at hEnts
    have hArray : parseJsonRpc (depth + 3) (.array (jsons.map entryArray)) =
      some (.array (members.map entryArray)) :=
      congrArg (fun items => (items.map JsonTree.array).bind binaryJsonReviver) hEnts
    have hTag : parseJsonRpc (depth + 3) (.string ESCAPED : JsonValue ν) =
      some (.string ESCAPED) := rfl
    rw [parseJsonRpc, escapeJsonObject, withChildren, mapMembers_pair hTag hArray]
    change binaryJsonReviver (escapeJsonObject members) = _
    rw [binaryJsonReviver, taggedData_escape, escapedEntries_escape]
    dsimp only
    rw [fromEntries_of_nodup hKeys]
  · rw [decodeBinaryJsonValue, taggedData_escape, escapedEntries_escape, map_some,
      getD_some, fromEntries_of_nodup (by rwa [keys_of_mapMembers hWrite])]
    exact congrArg (Option.map JsonTree.object) hDecode

theorem codes_object (hWrite : mapMembers (stringifyJsonRpc depth) members = some jsons)
  (hRead : mapMembers (parseJsonRpc depth) jsons = some members)
  (hDecode : mapMembers (decodeBinaryJsonValue depth) jsons = some members)
  (hMarker : ¬(isBufferJson members ∨ (taggedData (.object members)).isSome ∨
    (escapedEntries (.object members)).isSome)) :
  Codes (depth + 1) (.object members) (.object jsons) := by
  have hSame : binaryJsonReplacer (.object members) = .object members := if_neg hMarker
  rcases not_or.mp (not_or.mp hMarker).2 with ⟨hTagged, hEscaped⟩
  have hTaggedJson := mt (taggedData_of_parse hRead) hTagged
  have hEscapedJson := mt (escapedEntries_of_parse hRead) hEscaped
  rw [not_isSome_iff_eq_none] at hTagged hEscaped hTaggedJson hEscapedJson
  refine ⟨?_, ?_, ?_⟩
  · rw [stringifyJsonRpc, hSame]
    exact congrArg (Option.map JsonTree.object) hWrite
  · rw [parseJsonRpc, withChildren, hRead, map_some, bind_some, binaryJsonReviver,
      hTagged]
    dsimp only
    rw [hEscaped]
  · rw [decodeBinaryJsonValue, hTaggedJson, hEscapedJson]
    exact congrArg (Option.map JsonTree.object) hDecode

-- Round Trips

theorem exists_codes (hTree : WellFormed value) :
  ∃ json bound, ∀ depth, bound ≤ depth → Codes depth value json := by
  induction hTree with
  | atom value => exact ⟨.atom value, 1, fun | depth + 1, _ => ⟨rfl, rfl, rfl⟩⟩
  | string text => exact ⟨.string text, 1, fun | depth + 1, _ => ⟨rfl, rfl, rfl⟩⟩
  | binary data => exact ⟨_, 2, fun | depth + 2, _ => codes_binary depth data⟩
  | array hItems ih =>
    rcases exists_mapM ih with ⟨jsons, bound, hAll⟩
    refine ⟨.array jsons, bound + 1, fun | depth + 1, hDepth => ?_⟩
    rcases hAll depth (by omega) with ⟨hWrite, hRead, hDecode⟩
    exact codes_array hWrite hRead hDecode
  | @object members hKeys hMembers ih =>
    rcases exists_mapM
      (f := fun depth member => (stringifyJsonRpc depth member.2).map (member.1, ·))
      (g := fun depth member => (parseJsonRpc depth member.2).map (member.1, ·))
      (h := fun depth member => (decodeBinaryJsonValue depth member.2).map (member.1, ·))
      (fun member hMember => by
        rcases ih member hMember with ⟨json, bound, hCodes⟩
        refine ⟨(member.1, json), bound, fun depth hDepth => ?_⟩
        rcases hCodes depth hDepth with ⟨hWrite, hRead, hDecode⟩
        simp [hWrite, hRead, hDecode]) with ⟨jsons, bound, hAll⟩
    by_cases hMarker : isBufferJson members ∨ (taggedData (.object members)).isSome ∨
      (escapedEntries (.object members)).isSome
    · refine ⟨escapeJsonObject jsons, bound + 4, fun | depth + 4, hDepth => ?_⟩
      rcases hAll (depth + 1) (by omega) with ⟨hWrite, hRead, _⟩
      exact codes_escape hKeys hWrite hRead (hAll (depth + 3) (by omega)).2.2 (if_pos hMarker)
    · refine ⟨.object jsons, bound + 1, fun | depth + 1, hDepth => ?_⟩
      rcases hAll depth (by omega) with ⟨hWrite, hRead, hDecode⟩
      exact codes_object hWrite hRead hDecode hMarker

/- What is read of the text of a tree is the tree, from the bottom up as from the top down. -/
theorem parseJsonRpc_stringifyJsonRpc (tree : {value : RpcValue ν // WellFormed value}) :
  ∃ json bound, ∀ depth, bound ≤ depth → stringifyJsonRpc depth tree.val = some json ∧
    parseJsonRpc depth json = some tree.val ∧
      decodeBinaryJsonValue depth json = parseJsonRpc depth json := by
  rcases exists_codes tree.property with ⟨json, bound, hCodes⟩
  refine ⟨json, bound, fun depth hDepth => ?_⟩
  rcases hCodes depth hDepth with ⟨hWrite, hRead, hDecode⟩
  exact ⟨hWrite, hRead, hDecode.trans hRead.symm⟩

end TsStack.Wallet.BinaryJson
