import TsStack.Script.Script

/-
  When the script mutators edit the chunk list a script had.
-/

-- Chunks and Bytes After an Invalidation

namespace TsStack

namespace Script

/- The chunk list does not depend on the byte cache. -/
def Loaded (script : Script) : Prop :=
  script.parsed = true ∨ script.chunks = []

@[simp] theorem parsed_ensureParsed (script : Script) : script.ensureParsed.parsed = true := by
  unfold ensureParsed
  split_ifs with hParsed
  · exact hParsed
  · rfl

variable {script : Script}

theorem ensureParsed_of_parsed (hParsed : script.parsed = true) : script.ensureParsed = script := by
  simp [ensureParsed, hParsed]

@[simp] theorem ensureParsed_ensureParsed (script : Script) : script.ensureParsed.ensureParsed =
    script.ensureParsed :=
  ensureParsed_of_parsed script.parsed_ensureParsed

@[simp] theorem chunks_ensureParsed (script : Script) :
  script.ensureParsed.chunks = script.chunks := by
  simp [chunks]

@[simp] theorem ensureParsed_chunkArray (script : Script) :
  script.ensureParsed.chunkArray = script.chunks := rfl

@[simp] theorem ensureParsed_rawBytesCache (script : Script) : script.ensureParsed.rawBytesCache =
    script.rawBytesCache := by
  unfold ensureParsed
  split_ifs <;> rfl

theorem chunks_of_parsed (hParsed : script.parsed = true) : script.chunks = script.chunkArray := by
  rw [chunks, ensureParsed_of_parsed hParsed]

theorem chunks_invalidate_of_unparsed (hParsed : script.parsed = false) :
  script.invalidateSerializationCaches.chunks = [] := by
  simp [chunks, ensureParsed, invalidateSerializationCaches, hParsed]

theorem chunks_invalidate_iff (script : Script) :
  script.invalidateSerializationCaches.chunks = script.chunks ↔
    script.Loaded := by
  unfold Loaded
  cases hParsed : script.parsed with
  | true =>
    have hInvalidated : script.invalidateSerializationCaches.parsed =
      true := hParsed
    rw [chunks_of_parsed hParsed, chunks_of_parsed hInvalidated]
    exact ⟨fun _ => .inl rfl, fun _ => rfl⟩
  | false =>
    rw [chunks_invalidate_of_unparsed hParsed]
    simp only [Bool.false_eq_true, false_or]
    exact eq_comm

theorem toBinary_of_no_cache (hCache : script.rawBytesCache = none) :
  script.toBinary = serializeChunksToBytes script.chunks := by
  have hCached : script.ensureParsed.rawBytesCache = none := by simpa using hCache
  unfold toBinary getSerializedBytes
  rw [hCache]
  simp only [hCached, pure_eq_ok, ok_bind, ensureParsed_chunkArray]
  cases serializeChunksToBytes script.chunks with
  | error e => cases script.parsed <;> rfl
  | ok bytes => cases script.parsed <;> rfl

theorem snapshotMatches_self (chunks : List ScriptChunk) :
  snapshotMatches (chunks.map some) (chunks.map some) = .ok true := by
  induction chunks with
  | nil => rfl
  | cons chunk chunks ih => simp [snapshotMatches, ih]

/- A deletion pass only succeeds without holes. -/
theorem eq_map_of_deleteMatching {targetBytes : Bytes} {chunkArray rest : ChunkArray}
  (hDelete : deleteMatching targetBytes chunkArray = .ok rest) :
  ∃ chunks : List ScriptChunk, chunkArray = chunks.map some ∧ rest = (chunks.filter fun chunk =>
          !chunkMatchesBytes chunk targetBytes).map
            some := by
  induction chunkArray generalizing rest with
  | nil =>
    cases hDelete
    exact ⟨[], rfl, rfl⟩
  | cons head tail ih =>
    cases head with
    | none => cases hDelete
    | some chunk =>
      rw [deleteMatching, bind_eq_ok_iff] at hDelete
      rcases hDelete with ⟨kept, hTail, hEq⟩
      rcases ih hTail with ⟨chunks, rfl, rfl⟩
      refine ⟨chunk :: chunks, rfl, ?_⟩
      split_ifs at hEq with hMatch
      · simpa [hMatch] using hEq.symm
      · simpa [hMatch] using hEq.symm

-- One Edit

def Serialized (script : Script) : Prop :=
  script.toBinary = serializeChunksToBytes script.chunks

theorem chunks_pushChunk (script : Script) (chunk : ScriptChunk) :
  (script.pushChunk chunk).chunks = script.chunks ++ [some chunk] :=
  chunks_of_parsed script.parsed_ensureParsed

theorem loaded_pushChunk (script : Script) (chunk : ScriptChunk) :
  (script.pushChunk chunk).Loaded :=
  Or.inl script.parsed_ensureParsed

theorem rawBytesCache_pushChunk (script : Script) (chunk : ScriptChunk) :
  (script.pushChunk chunk).rawBytesCache =
    script.rawBytesCache :=
  script.ensureParsed_rawBytesCache

theorem serialized_of_no_cache (hCache : script.rawBytesCache = none) : script.Serialized :=
  toBinary_of_no_cache hCache

theorem getSerializedBytes_invalidate (script : Script) :
  script.invalidateSerializationCaches.getSerializedBytes = (do
      let script := script.invalidateSerializationCaches.ensureParsed
      let bytes ← serializeChunksToBytes script.chunkArray
      return (bytes,
        { script with
          rawBytesCache := some bytes
          hexCache := none
          chunkCacheState := some script.chunkArray })) := by
  have hCache : script.invalidateSerializationCaches.rawBytesCache =
    none := rfl
  have hCached := (ensureParsed_rawBytesCache _).trans hCache
  unfold getSerializedBytes
  rw [hCache]
  simp only [hCached, pure_eq_ok, ok_bind]
  cases script.invalidateSerializationCaches.parsed <;> rfl

/- The splicing loop edits the chunk list. -/
theorem spliceMatching_chunks (script : Script) (targetBytes : Bytes) :
  (script.spliceMatching targetBytes).map chunks = deleteMatching targetBytes script.chunks := by
  unfold spliceMatching
  simp only [ensureParsed_chunkArray]
  cases deleteMatching targetBytes script.chunks with
  | error e => rfl
  | ok chunks => exact congrArg Except.ok (chunks_of_parsed (parsed_ensureParsed _))

end Script

namespace ScriptEdit

/- `writeBin` pushes the chunk of its data. -/
theorem writeBin_chunks (script : Script) (bin : Bytes) :
  (script.writeBin bin).map Script.chunks = (do
      let chunk ← Script.binChunk bin
      return script.invalidateSerializationCaches.chunks ++ [some chunk]) := by
  unfold Script.writeBin
  cases Script.binChunk bin with
  | error e => rfl
  | ok chunk => exact congrArg Except.ok (Script.chunks_pushChunk _ _)

theorem writeBn_chunks (script : Script) (bn : Int) : (script.writeBn bn).map Script.chunks = (do
      let chunk ← bnChunk bn
      return script.invalidateSerializationCaches.chunks ++ [some chunk]) := by
  unfold Script.writeBn bnChunk
  split_ifs
  · exact congrArg Except.ok (Script.chunks_pushChunk _ _)
  · exact congrArg Except.ok (Script.chunks_pushChunk _ _)
  · exact congrArg Except.ok (Script.chunks_pushChunk _ _)
  · exact writeBin_chunks _ _

theorem findAndDelete_chunks (script : Script) (argument : Script.Argument) :
  (script.findAndDelete argument).map Script.chunks = (ScriptEdit.findAndDelete argument).onChunks
      script.invalidateSerializationCaches.chunks := by
  unfold Script.findAndDelete
  cases argument with
  | this =>
    simp only [Script.getSerializedBytes_invalidate, onChunks, Script.Argument.bytesFor,
      Script.ensureParsed_chunkArray]
    cases serializeChunksToBytes script.invalidateSerializationCaches.chunks with
    | error e => rfl
    | ok targetBytes =>
      simp only [ok_bind, pure_eq_ok]
      split_ifs
      · exact congrArg Except.ok (Script.chunks_of_parsed (Script.parsed_ensureParsed _))
      · rw [Script.spliceMatching_chunks]
        exact congrArg _ (Script.chunks_of_parsed (Script.parsed_ensureParsed _))
  | other other =>
    simp only [onChunks, Script.Argument.bytesFor]
    cases other.toBinary with
    | error e => rfl
    | ok targetBytes =>
      simp only [ok_bind, pure_eq_ok]
      split_ifs
      · rfl
      · exact Script.spliceMatching_chunks _ _

theorem run_chunks (edit : ScriptEdit) (script : Script) :
  (edit.run script).map Script.chunks = edit.onChunks
      script.invalidateSerializationCaches.chunks := by
  cases edit with
  | writeScript argument =>
    cases argument with
    | this => rfl
    | other script => rfl
  | writeOpCode op => exact congrArg Except.ok (Script.chunks_pushChunk _ _)
  | setChunkOpCode i op =>
    exact congrArg Except.ok (Script.chunks_of_parsed (Script.parsed_ensureParsed _))
  | writeBn bn => exact writeBn_chunks script bn
  | writeBin bin => exact writeBin_chunks script bin
  | writeNumber num =>
    simp only [run, onChunks, Script.writeNumber]
    split_ifs with hSafe
    · exact writeBn_chunks _ num
    · rfl
  | findAndDelete argument => exact findAndDelete_chunks script argument

/- A cached serialization is reused while it matches. -/
theorem serialized_of_cache
  {chunks : List ScriptChunk} {states : ChunkArray} {raw : Bytes} {hexCache : Option JsString}
  (hRaw : states.length = chunks.length → states = chunks.map some ∧
        serializeChunksToBytes states = .ok raw) :
  Script.Serialized
    { chunkArray := chunks.map some
      parsed := true
      rawBytesCache := some raw
      hexCache := hexCache
      chunkCacheState := some states } := by
  unfold Script.Serialized Script.toBinary
  rw [Script.chunks_of_parsed rfl]
  by_cases hLen : states.length = chunks.length
  · rcases hRaw hLen with ⟨rfl, hSerialize⟩
    simp [Script.getSerializedBytes, Script.ensureParsed, Script.chunkCacheMatchesState,
      Script.snapshotMatches_self, hSerialize]
  · simp only [Script.getSerializedBytes, Script.ensureParsed, Script.chunkCacheMatchesState,
      List.length_map, ne_eq, hLen, not_false_eq_true,
      if_true, ok_bind, pure_eq_ok, Bool.false_eq_true,
      if_false]
    cases serializeChunksToBytes (chunks.map some) with
    | error e => rfl
    | ok bytes => rfl

variable {script result : Script}

theorem spliceMatching_settled {targetBytes : Bytes} (hCache : script.rawBytesCache = none)
  (hRun : script.spliceMatching targetBytes = .ok result) : result.Loaded ∧ result.Serialized := by
  rcases bind_eq_ok_iff.mp hRun with ⟨chunks, hDelete, hEq⟩
  cases hEq
  refine ⟨.inl (Script.parsed_ensureParsed _), ?_⟩
  apply Script.serialized_of_no_cache
  exact (Script.ensureParsed_rawBytesCache _).trans hCache

theorem findAndDelete_this_settled (hRun : script.findAndDelete .this = .ok result) :
  result.Loaded ∧ result.Serialized := by
  unfold Script.findAndDelete at hRun
  simp only [Script.getSerializedBytes_invalidate, Script.ensureParsed_chunkArray] at hRun
  cases hSerialize : serializeChunksToBytes script.invalidateSerializationCaches.chunks with
  | error e =>
    rw [hSerialize] at hRun
    cases hRun
  | ok bytes =>
    simp only [hSerialize, ok_bind, pure_eq_ok, Script.parsed_ensureParsed] at hRun
    split_ifs at hRun with hEmpty
    · have hBytes : bytes = [] := List.eq_nil_of_length_eq_zero hEmpty
      subst hBytes
      have hChunks := eq_nil_of_serializeChunksToBytes hSerialize
      cases hRun
      rw [hChunks]
      exact ⟨.inl rfl, @serialized_of_cache [] _ _ _ fun _ => ⟨rfl, rfl⟩⟩
    · simp only [Script.spliceMatching, Script.ensureParsed, if_true] at hRun
      rcases bind_eq_ok_iff.mp hRun with ⟨kept, hDelete, hEq⟩
      rcases Script.eq_map_of_deleteMatching hDelete with ⟨chunks, hChunks, rfl⟩
      cases hEq
      refine ⟨.inl rfl, serialized_of_cache ?_⟩
      intro hLen
      have hKept :
          (chunks.filter fun chunk =>
            !Script.chunkMatchesBytes chunk bytes) =
              chunks := by
        apply List.filter_eq_self.mpr
        apply List.length_filter_eq_length_iff.mp
        rw [← hLen, hChunks, List.length_map]
      rw [hKept]
      exact ⟨hChunks, hSerialize⟩

/-
  After an edit the chunk list no longer depends on the
  byte cache, and the bytes are its serialization.
-/
theorem run_settled {edit : ScriptEdit} (hRun : edit.run script = .ok result) :
  result.Loaded ∧ result.Serialized := by
  have hPush
      (pushed : Script)
      (chunk : ScriptChunk) :
      (pushed.invalidateSerializationCaches.pushChunk chunk).Loaded ∧
        (pushed.invalidateSerializationCaches.pushChunk chunk).Serialized :=
    ⟨Script.loaded_pushChunk _ _, Script.serialized_of_no_cache
      (Script.rawBytesCache_pushChunk _ _)⟩
  have hBin
      {pushed : Script}
      {bin : Bytes}
      (hWrite : pushed.writeBin bin = .ok result) :
      result.Loaded ∧ result.Serialized := by
    rcases bind_eq_ok_iff.mp hWrite with ⟨chunk, hChunk, hEq⟩
    cases hEq
    exact hPush pushed chunk
  have hBn
      {pushed : Script}
      {bn : Int}
      (hWrite : pushed.writeBn bn = .ok result) :
      result.Loaded ∧ result.Serialized := by
    unfold Script.writeBn at hWrite
    split_ifs at hWrite
    · cases hWrite
      exact hPush pushed _
    · cases hWrite
      exact hPush pushed _
    · cases hWrite
      exact hPush pushed _
    · exact hBin hWrite
  cases edit with
  | writeScript argument =>
    cases argument with
    | this =>
      cases hRun
      exact ⟨.inl rfl, Script.serialized_of_no_cache rfl⟩
    | other other =>
      cases hRun
      exact ⟨.inl rfl, Script.serialized_of_no_cache rfl⟩
  | writeOpCode op =>
    cases hRun
    exact hPush script _
  | setChunkOpCode i op =>
    cases hRun
    exact ⟨.inl (Script.parsed_ensureParsed _),
      Script.serialized_of_no_cache (Script.ensureParsed_rawBytesCache _)⟩
  | writeBn bn => exact hBn hRun
  | writeBin bin => exact hBin hRun
  | writeNumber num =>
    simp only [run, Script.writeNumber] at hRun
    split_ifs at hRun
    exact hBn hRun
  | findAndDelete argument =>
    cases argument with
    | this => exact findAndDelete_this_settled hRun
    | other other =>
      simp only [run, Script.findAndDelete] at hRun
      cases hOther : other.toBinary with
      | error e =>
        rw [hOther] at hRun
        cases hRun
      | ok targetBytes =>
        simp only [hOther, ok_bind, pure_eq_ok] at hRun
        split_ifs at hRun with hEmpty
        · cases hRun
          refine ⟨?_, Script.serialized_of_no_cache rfl⟩
          cases hParsed : script.parsed with
          | true => exact .inl hParsed
          | false => exact .inr (Script.chunks_invalidate_of_unparsed hParsed)
        · exact spliceMatching_settled rfl hRun

end ScriptEdit

-- Sequences of Edits

def Script.contents (script : Script) :
  ChunkArray × Except JsError Bytes :=
  (script.chunks, script.toBinary)

def chunkContents (chunks : ChunkArray) :
  ChunkArray × Except JsError Bytes :=
  (chunks, serializeChunksToBytes chunks)

theorem ScriptEdit.runAll_contents
  (edits : List ScriptEdit) {script : Script} (hLoaded : script.Loaded)
  (hSerialized : script.Serialized) :
  (runAll script edits).map Script.contents = (onChunksAll script.chunks edits).map
      chunkContents := by
  induction edits generalizing script with
  | nil => exact congrArg (fun bytes => Except.ok (script.chunks, bytes)) hSerialized
  | cons edit edits ih =>
    have hStep := edit.run_chunks script
    rw [(Script.chunks_invalidate_iff script).mpr hLoaded] at hStep
    rw [runAll, onChunksAll, ← hStep]
    cases hRun : edit.run script with
    | error e => rfl
    | ok result =>
      have hSettled := run_settled hRun
      exact ih hSettled.1 hSettled.2

/-
  Every edit sequence gives the chunk list the edits make
  of the original one, and the bytes of that list.
-/
def Script.AppendsToOriginal (script : Script) : Prop :=
  ∀ edits : List ScriptEdit, (ScriptEdit.runAll script edits).map Script.contents =
      (ScriptEdit.onChunksAll script.chunks edits).map chunkContents

-- Scripts as the Constructors and Readers Leave Them

namespace Script

/-
  A script from a constructor, possibly read since: its
  chunks parsed on demand or its bytes serialized.
-/
inductive Obtained : Script → Prop where
| ofChunks
    (chunks : List ScriptChunk) :
    Obtained (ofChunks chunks)
| fromBinary
    (bin : Bytes) :
    Obtained (fromBinary bin)
| fromHex
    {hex : JsString} {script : Script} (hHex : fromHex hex = .ok script) :
    Obtained script
| read
    {script : Script} (hScript : Obtained script) :
    Obtained script.ensureParsed
| serialize
    {script result : Script} {bytes : Bytes} (hScript : Obtained script)
    (hSerialize : script.getSerializedBytes = .ok (bytes, result)) :
    Obtained result

/- What holds of the caches while nothing is edited. -/
structure CacheInvariant (script : Script) : Prop where
  dense : ∃ chunks : List ScriptChunk, script.chunks = chunks.map some
  unparsed : script.parsed = false → script.rawBytesCache ≠ none
  snapshot : script.parsed = true → script.rawBytesCache ≠ none →
      script.chunkCacheState = some script.chunkArray

theorem CacheInvariant.fromBinary (bin : Bytes) : (Script.fromBinary bin).CacheInvariant where
  dense := ⟨parseChunks bin, rfl⟩
  unparsed := by simp [Script.fromBinary]
  snapshot := by simp [Script.fromBinary]

variable {script : Script}

theorem CacheInvariant.ensureParsed (hScript : script.CacheInvariant) :
  script.ensureParsed.CacheInvariant := by
  cases hParsed : script.parsed with
  | true => rwa [ensureParsed_of_parsed hParsed]
  | false =>
    refine ⟨by simpa using hScript.dense, by simp, ?_⟩
    intro _ _
    simp [Script.ensureParsed, hParsed]

theorem CacheInvariant.getSerializedBytes_of_cache
  {raw : Bytes} (hScript : script.CacheInvariant) (hCache : script.rawBytesCache = some raw) :
  script.getSerializedBytes = .ok (raw, script) := by
  unfold getSerializedBytes
  cases hParsed : script.parsed with
  | false => simp only [hCache]
  | true =>
    have hSnap := hScript.snapshot hParsed (by simp [hCache])
    rcases hScript.dense with ⟨chunks, hChunks⟩
    rw [chunks_of_parsed hParsed] at hChunks
    simp [hCache, ensureParsed_of_parsed hParsed, chunkCacheMatchesState, hSnap, hChunks,
      snapshotMatches_self]

theorem Obtained.cacheInvariant (hScript : script.Obtained) : script.CacheInvariant := by
  induction hScript with
  | ofChunks chunks =>
    refine ⟨⟨chunks, rfl⟩, ?_, ?_⟩
    · simp [Script.ofChunks]
    · simp [Script.ofChunks]
  | fromBinary bin => exact .fromBinary bin
  | fromHex hHex =>
    unfold Script.fromHex at hHex
    split_ifs at hHex
    · cases hHex
      exact .fromBinary []
    · split at hHex
      · cases hHex
      · rename_i rawBytes hBytes
        cases hHex
        exact ⟨(CacheInvariant.fromBinary rawBytes).dense, by simp [Script.fromBinary],
          by simp [Script.fromBinary]⟩
  | read _ ih => exact ih.ensureParsed
  | serialize _ hSerialize ih =>
    rename_i script result bytes _
    cases hCache : script.rawBytesCache with
    | some raw =>
      rw [ih.getSerializedBytes_of_cache hCache] at hSerialize
      cases hSerialize
      exact ih
    | none =>
      have hParsed : script.parsed = true := by
        cases hParsed : script.parsed with
        | true => rfl
        | false => exact absurd hCache (ih.unparsed hParsed)
      simp only [getSerializedBytes, hParsed, hCache, ensureParsed_of_parsed hParsed, pure_eq_ok,
        ok_bind] at hSerialize
      rcases bind_eq_ok_iff.mp hSerialize with ⟨fresh, hFresh, hEq⟩
      cases hEq
      refine ⟨?_, ?_, fun _ _ => rfl⟩
      · rcases ih.dense with ⟨chunks, hChunks⟩
        rw [chunks_of_parsed hParsed] at hChunks
        exact ⟨chunks, hChunks⟩
      · intro hUnparsed
        cases hUnparsed

theorem CacheInvariant.serialized_iff (hScript : script.CacheInvariant) :
  script.Serialized ↔ ∀ raw, script.rawBytesCache = some raw →
      serializeChunksToBytes script.chunks = .ok raw := by
  cases hCache : script.rawBytesCache with
  | none => simp [serialized_of_no_cache hCache]
  | some raw =>
    have hBytes : script.toBinary = .ok raw := by
      simp [toBinary, hScript.getSerializedBytes_of_cache hCache]
    unfold Serialized
    rw [hBytes]
    simp [eq_comm]

/-
  Mutators append to what was there exactly when the script is parsed or has no chunks, and the
  bytes it caches are the serialization of its chunks.
-/
theorem appendsToOriginal_iff {script : Script} (hScript : script.Obtained) :
  script.AppendsToOriginal ↔ (script.parsed = true ∨ script.chunks = []) ∧
      ∀ raw, script.rawBytesCache = some raw →
        serializeChunksToBytes script.chunks = .ok raw := by
  rw [← hScript.cacheInvariant.serialized_iff]
  constructor
  · intro hAppends
    constructor
    · have hEdit := hAppends [.writeOpCode 0]
      have hPush := chunks_pushChunk script.invalidateSerializationCaches { op := 0 }
      have hEq := Except.ok.inj hEdit
      have hChunks := congrArg Prod.fst hEq
      apply (chunks_invalidate_iff script).mp
      exact List.append_cancel_right (hPush.symm.trans hChunks)
    · have hEmpty := hAppends []
      exact congrArg Prod.snd (Except.ok.inj hEmpty)
  · rintro ⟨hLoaded, hSerialized⟩ edits
    exact ScriptEdit.runAll_contents edits hLoaded hSerialized

theorem appendsToOriginal_iff_read : (fromBinary [0x51]).ensureParsed.AppendsToOriginal := by
  refine (appendsToOriginal_iff (.read (.fromBinary _))).mpr ⟨Or.inl (parsed_ensureParsed _), ?_⟩
  intro raw hRaw
  have hParse : (fromBinary [0x51]).ensureParsed.chunks = [{ op := 0x51 }].map some := by
    simp [fromBinary, chunks, ensureParsed, parseChunks, parseChunksLoop, OP.OP_PUSHDATA4]
  rw [hParse, serializeChunksToBytes_map_some]
  rw [ensureParsed_rawBytesCache] at hRaw
  cases hRaw
  rfl

/- An unparsed one-opcode script loses its opcode. -/
theorem not_appendsToOriginal_fromBinary : ¬(fromBinary [0x51]).AppendsToOriginal := by
  intro hAppends
  have hEdit := congrArg Prod.fst (Except.ok.inj (hAppends [.writeOpCode 0x52]))
  have hPush := chunks_pushChunk (fromBinary [0x51]).invalidateSerializationCaches { op := 0x52 }
  have hChunks := List.append_cancel_right (hPush.symm.trans hEdit)
  rw [chunks_invalidate_of_unparsed rfl] at hChunks
  have hLength := congrArg List.length hChunks
  simp [fromBinary, chunks, ensureParsed, parseChunks, parseChunksLoop, OP.OP_PUSHDATA4] at hLength

end Script

end TsStack
