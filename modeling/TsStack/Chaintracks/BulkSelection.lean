import Mathlib.Data.List.Induction
import Mathlib.Data.List.Perm.Subperm
import TsStack.Auth.AuthMessage
import TsStack.Chaintracks.BulkFileReader

/-
  The choice of bulk files from a manifest by
  `selectBulkHeaderFiles` of `BulkFileDataManager.ts`.

  The best file of a first height is chosen by a running
  comparison, which notices only a file that is as long as
  the best one so far.
-/

-- File Descriptors

open List Option

namespace TsStack.Chaintracks

open Auth

/- A value of `unknown` type; numbers that are no integers are alike for the checks. -/
inductive JsValue where
| undefined
| null
| boolean (value : Bool)
| integer (value : Int)
| otherNumber
| string (text : JsText)
| uint8Array (data : Bytes)
| other
deriving DecidableEq

/- A property as `Object.getOwnPropertyDescriptor` finds it. -/
inductive OwnProperty where
| absent
| accessor
| data (value : JsValue)

inductive ManifestEntry where
| noData
| noObject
| object (own : String → OwnProperty)

structure BulkHeaderFileInfo where
  chain : Chain
  count : Nat
  count_pos : 1 ≤ count
  firstHeight : Nat
  fileName : JsText
  fileHash : JsText
  prevHash : JsText
  lastHash : JsText
  prevChainWork : JsText
  lastChainWork : JsText
  sourceUrl : Option JsText
  fileId : Option Nat
  validated : Option Bool
  data : Option Bytes

def ownDataValue (own : String → OwnProperty) (name : String) (required : Bool) :
  Except ChaintracksError JsValue :=
  match own name with
  | .absent =>
    if required then .error (.invalidParameter ("bulk file " ++ name) "defined")
    else .ok .undefined
  | .accessor => .error (.invalidParameter ("bulk file " ++ name) "an own data property")
  | .data value => .ok value

def required {α : Type} (read : Option α) (parameter mustBe : String) : Except ChaintracksError α :=
  match read with
  | some value => .ok value
  | none => .error (.invalidParameter parameter mustBe)

def optional {α : Type} (value : JsValue) (read : JsValue → Option α) (parameter mustBe : String) :
  Except ChaintracksError (Option α) :=
  if value = .undefined then .ok none
  else (required (read value) parameter mustBe).map some

def chainName : Chain → String
| .main => "main"
| .test => "test"
| .stn => "stn"
| .ttn => "ttn"
| .tstn => "tstn"
| .regtest => "regtest"
| .mock => "mock"

def supportedChain (value : JsValue) : Option Chain :=
  [Chain.main, .test, .stn, .ttn, .tstn, .regtest, .mock].find? fun chain =>
    value = .string (Json.text (chainName chain))

def integerIn (least greatest : Nat) : JsValue → Option {value : Nat // least ≤ value}
| .integer value =>
  if h : least ≤ value.toNat ∧ 0 ≤ value ∧ value ≤ greatest ∧ value ≤ maxSafeInteger then
    some ⟨value.toNat, h.1⟩
  else none
| _ => none

def stringThat (accepts : JsText → Bool) : JsValue → Option JsText
| .string text => if accepts text then some text else none
| _ => none

def isAlphanumeric (unit : UInt16) : Bool :=
  (48 ≤ unit ∧ unit ≤ 57) ∨ (65 ≤ unit ∧ unit ≤ 90) ∨ (97 ≤ unit ∧ unit ≤ 122)

def isSafeFileName (name : JsText) : Bool :=
  match name with
  | [] => false
  | first :: rest =>
    name.length ≤ 255 ∧ isAlphanumeric first ∧
      rest.all fun unit => isAlphanumeric unit ∨ unit ∈ Json.text "._~-"

def isCanonicalFileHash (hash : JsText) : Bool :=
  hash.length = 44 ∧ hash.getLast? = some padding ∧
    (Base64.decodeForgiving base64Alphabet hash.dropLast).any fun digest =>
      digest.length = 32 ∧ Base64.encodePadded base64Alphabet padding digest = hash

def isHex32 (text : JsText) : Bool :=
  text.length = 64 ∧ text.all fun unit => unit ∈ Json.text "0123456789abcdef"

def isSourceUrl (text : JsText) : Bool :=
  text.length ≤ 2048 ∧ text.all fun unit => unit ≠ 13 ∧ unit ≠ 10 ∧ unit ≠ 0

def storedBoolean (allowStoredBoolean : Bool) : JsValue → Option Bool
| .boolean value => some value
| .integer 0 => if allowStoredBoolean then some false else none
| .integer 1 => if allowStoredBoolean then some true else none
| _ => none

def uint8Array : JsValue → Option Bytes
| .uint8Array data => some data
| _ => none

def normalizeBulkHeaderFileInfo (own : String → OwnProperty) (allowStoredBoolean : Bool) :
  Except ChaintracksError BulkHeaderFileInfo := do
  let chain ← ownDataValue own "chain" true
  let count ← ownDataValue own "count" true
  let firstHeight ← ownDataValue own "firstHeight" true
  let fileName ← ownDataValue own "fileName" true
  let fileHash ← ownDataValue own "fileHash" true
  let prevHash ← ownDataValue own "prevHash" true
  let lastHash ← ownDataValue own "lastHash" true
  let prevChainWork ← ownDataValue own "prevChainWork" true
  let lastChainWork ← ownDataValue own "lastChainWork" true
  let hex (value : JsValue) (name : String) :=
    required (stringThat isHex32 value) name "exactly 32 lowercase hexadecimal bytes"
  let chain ← required (supportedChain chain) "bulk file chain" "a supported Chaintracks network"
  let count ← required (integerIn 1 maxBulkFileHeaders count) "bulk file count"
    "an integer from 1 through 100000"
  let firstHeight ← required
    ((integerIn 0 maxBlockHeight firstHeight).filter (·.val + count.val - 1 ≤ maxBlockHeight))
    "bulk file firstHeight" "a supported non-negative block-header range"
  let fileName ← required (stringThat isSafeFileName fileName) "bulk file fileName"
    "a safe path-free ASCII file name"
  let fileHash ← required (stringThat isCanonicalFileHash fileHash) "bulk file fileHash"
    "a canonical base64 SHA-256 digest"
  let prevHash ← hex prevHash "bulk file prevHash"
  let lastHash ← hex lastHash "bulk file lastHash"
  let prevChainWork ← hex prevChainWork "bulk file prevChainWork"
  let lastChainWork ← hex lastChainWork "bulk file lastChainWork"
  let storedSourceUrl ← ownDataValue own "sourceUrl" false
  let sourceUrl ← optional
    (if allowStoredBoolean ∧ storedSourceUrl = .null then .undefined else storedSourceUrl)
    (stringThat isSourceUrl) "bulk file sourceUrl"
    "a string no longer than 2048 characters without control lines"
  let fileIdValue ← ownDataValue own "fileId" false
  let fileId ← optional fileIdValue (integerIn 1 maxSafeInteger) "bulk file fileId"
    "a positive safe integer"
  let validatedValue ← ownDataValue own "validated" false
  let validated ← optional validatedValue (storedBoolean allowStoredBoolean)
    "bulk file validated" "a boolean when defined"
  let dataValue ← ownDataValue own "data" false
  let data ← optional dataValue uint8Array "bulk file data" "a Uint8Array when defined"
  return {
    chain, count, count_pos := count.property, firstHeight, fileName, fileHash, prevHash,
    lastHash, prevChainWork, lastChainWork, sourceUrl, fileId := fileId.map (·.val),
    validated, data }

def normalizeEntry : ManifestEntry → Except ChaintracksError BulkHeaderFileInfo
| .noData => .error (.invalidParameter "files" "a dense array of plain data entries")
| .noObject =>
  .error (.invalidParameter "bulk file metadata" "an object containing plain data properties")
| .object own => normalizeBulkHeaderFileInfo own false

-- Selection

def bestAt (best : List BulkHeaderFileInfo) (height : Nat) : Option BulkHeaderFileInfo :=
  best.find? (·.firstHeight = height)

/- `Map.set`; the order of the entries is never read. -/
def setBest (best : List BulkHeaderFileInfo) (file : BulkHeaderFileInfo) :
  List BulkHeaderFileInfo :=
  file :: best.filter (·.firstHeight ≠ file.firstHeight)

def keepBest (best : List BulkHeaderFileInfo) (file : BulkHeaderFileInfo) :
  Except ChaintracksError (List BulkHeaderFileInfo) :=
  match bestAt best file.firstHeight with
  | none => .ok (setBest best file)
  | some current =>
    if current.count < file.count then .ok (setBest best file)
    else if current.count = file.count ∧ current.fileHash ≠ file.fileHash then
      .error (.invalidParameter "files" "unambiguous for each chain, first height, and count")
    else .ok best

def selectStep (chain : Chain) (maxPerFile : Nat) (best : List BulkHeaderFileInfo)
  (entry : ManifestEntry) : Except ChaintracksError (List BulkHeaderFileInfo) := do
  let file ← normalizeEntry entry
  if file.chain ≠ chain ∨ maxPerFile < file.count then return best
  else keepBest best file

def selectFrom (bestAt : Nat → Option BulkHeaderFileInfo) :
  Nat → Nat → List BulkHeaderFileInfo
| 0, _ => []
| turns + 1, height =>
  match bestAt height with
  | none => []
  | some choice => choice :: selectFrom bestAt turns (height + choice.count)

def selectBulkHeaderFiles (files : List ManifestEntry) (chain maxPerFile : JsValue) :
  Except ChaintracksError (List BulkHeaderFileInfo) := do
  let chain ← required (supportedChain chain) "chain" "a supported Chaintracks network"
  let maxPerFile ← required (integerIn 1 maxBulkFileHeaders maxPerFile) "maxPerFile"
    "an integer from 1 through 100000"
  if files.length > 10000 then
    .error (.invalidParameter "files" "a dense array of no more than 10000 entries")
  else do
    let best ← files.foldlM (selectStep chain maxPerFile) []
    return selectFrom (bestAt best) (best.length + 1) 0

-- The Best Files

structure Largest (files : List BulkHeaderFileInfo) (file : BulkHeaderFileInfo) : Prop where
  mem : file ∈ files
  covers : ∀ other ∈ files, other.firstHeight = file.firstHeight → other.count ≤ file.count

structure Keeps (files best : List BulkHeaderFileInfo) : Prop where
  nodup : (best.map (·.firstHeight)).Nodup
  largest : ∀ height file, bestAt best height = some file → Largest files file
  kept : ∀ file ∈ files, ∃ current, bestAt best file.firstHeight = some current ∧
    (file.count = current.count → file.fileHash = current.fileHash)

variable
    {best next files others : List BulkHeaderFileInfo}
    {file other current : BulkHeaderFileInfo} {height : Nat}

theorem firstHeight_of_bestAt (hAt : bestAt best height = some file) :
  file.firstHeight = height := by
  simpa using find?_some hAt

theorem mem_keys_iff : height ∈ best.map (·.firstHeight) ↔ (bestAt best height).isSome = true := by
  simp [bestAt]

theorem bestAt_setBest : bestAt (setBest best file) height =
    if height = file.firstHeight then some file else bestAt best height := by
  unfold bestAt setBest
  split_ifs with hHeight
  · exact find?_cons_of_pos (by simpa using hHeight.symm)
  · rw [find?_cons_of_neg (by simpa using Ne.symm hHeight), find?_filter]
    refine congrArg (find? · best) (funext fun row => ?_)
    by_cases hRow : row.firstHeight = height
    · simp [hRow, hHeight]
    · simp [hRow]

theorem nodup_setBest (hNodup : (best.map (·.firstHeight)).Nodup) :
  ((setBest best file).map (·.firstHeight)).Nodup := by
  rw [setBest, map_cons, nodup_cons]
  exact ⟨by simp, hNodup.sublist (filter_sublist.map _)⟩

theorem keepBest_spec (hKeep : keepBest best file = .ok next) :
  (next = best ∧ ∃ current, bestAt best file.firstHeight = some current ∧
      file.count ≤ current.count ∧
        (file.count = current.count → file.fileHash = current.fileHash)) ∨
    (next = setBest best file ∧
      ∀ current, bestAt best file.firstHeight = some current → current.count < file.count) := by
  unfold keepBest at hKeep
  cases hAt : bestAt best file.firstHeight with
  | none =>
    rw [hAt] at hKeep
    cases hKeep
    exact .inr ⟨rfl, fun _ hNone => (nomatch hNone)⟩
  | some current =>
    rw [hAt] at hKeep
    dsimp only at hKeep
    split_ifs at hKeep with hLess hTie
    · cases hKeep
      exact .inr ⟨rfl, fun old hOld => by rwa [← Option.some.inj hOld]⟩
    · cases hKeep
      refine .inl ⟨rfl, current, rfl, Nat.le_of_not_lt hLess, fun hCount => ?_⟩
      by_contra hHash
      exact hTie ⟨hCount.symm, Ne.symm hHash⟩

theorem Largest.append_singleton (hLargest : Largest files other)
  (hFile : file.firstHeight = other.firstHeight → file.count ≤ other.count) :
  Largest (files ++ [file]) other := by
  refine ⟨mem_append_left _ hLargest.mem, fun old hOld hFst => ?_⟩
  rcases mem_append.mp hOld with hOld | hOld
  · exact hLargest.covers old hOld hFst
  · rw [mem_singleton.mp hOld] at hFst ⊢
    exact hFile hFst

theorem Keeps.append_singleton (hKeeps : Keeps files best) (hKeep : keepBest best file = .ok next) :
  Keeps (files ++ [file]) next := by
  rcases keepBest_spec hKeep with ⟨rfl, current, hAt, hCount, hHash⟩ | ⟨rfl, hLess⟩
  · refine ⟨hKeeps.nodup, fun height kept hKept => ?_, fun old hOld => ?_⟩
    · refine (hKeeps.largest height kept hKept).append_singleton fun hFst => ?_
      rw [hFst, firstHeight_of_bestAt hKept, hKept] at hAt
      cases hAt
      exact hCount
    · rcases mem_append.mp hOld with hOld | hOld
      · exact hKeeps.kept old hOld
      · rw [mem_singleton.mp hOld]
        exact ⟨current, hAt, hHash⟩
  · have hBelow : ∀ old ∈ files, old.firstHeight = file.firstHeight → old.count < file.count := by
      intro old hOld hFst
      rcases hKeeps.kept old hOld with ⟨current, hAt, _⟩
      have hLe := (hKeeps.largest _ _ hAt).covers old hOld (firstHeight_of_bestAt hAt).symm
      rw [hFst] at hAt
      exact Nat.lt_of_le_of_lt hLe (hLess current hAt)
    refine ⟨nodup_setBest hKeeps.nodup, fun height kept hKept => ?_, fun old hOld => ?_⟩
    · rw [bestAt_setBest] at hKept
      split_ifs at hKept with hHeight
      · cases hKept
        refine ⟨by simp, fun old hOld hFst => ?_⟩
        rcases mem_append.mp hOld with hOld | hOld
        · exact (hBelow old hOld hFst).le
        · rw [mem_singleton.mp hOld]
      · refine (hKeeps.largest height kept hKept).append_singleton fun hFst => ?_
        rw [firstHeight_of_bestAt hKept] at hFst
        exact absurd hFst.symm hHeight
    · rw [bestAt_setBest]
      rcases mem_append.mp hOld with hOld | hOld
      · split_ifs with hFst
        · exact ⟨file, rfl, fun hCount => absurd hCount (hBelow old hOld hFst).ne⟩
        · exact hKeeps.kept old hOld
      · rw [mem_singleton.mp hOld, if_pos rfl]
        exact ⟨file, rfl, fun _ => rfl⟩

theorem keeps_foldlM (hRun : files.foldlM keepBest [] = .ok best) : Keeps files best := by
  induction files using reverseRecOn generalizing best with
  | nil =>
    cases hRun
    exact ⟨nodup_nil, fun _ _ hAt => (nomatch hAt), fun _ hFile => (nomatch hFile)⟩
  | append_singleton files file ih =>
    rw [foldlM_append] at hRun
    rcases bind_eq_ok_iff.mp hRun with ⟨before, hPre, hStep⟩
    rw [foldlM_cons] at hStep
    rcases bind_eq_ok_iff.mp hStep with ⟨after, hAfter, hNil⟩
    cases hNil
    exact (ih hPre).append_singleton hAfter

theorem exists_foldlM
  (hAgree : ∀ before file after, files = before ++ file :: after → ∀ kept, Largest before kept →
    kept.firstHeight = file.firstHeight → kept.count = file.count →
      kept.fileHash = file.fileHash) :
  ∃ best, files.foldlM keepBest [] = .ok best := by
  induction files using reverseRecOn with
  | nil => exact ⟨[], rfl⟩
  | append_singleton files file ih =>
    rcases ih fun before old after hFiles =>
      hAgree before old (after ++ [file]) (by simp [hFiles]) with ⟨best, hBest⟩
    have hStep : ∃ next, keepBest best file = .ok next := by
      unfold keepBest
      cases hAt : bestAt best file.firstHeight with
      | none => exact ⟨_, rfl⟩
      | some current =>
        dsimp only
        have hHash := hAgree files file [] rfl current ((keeps_foldlM hBest).largest _ _ hAt)
          (firstHeight_of_bestAt hAt)
        split_ifs with hLess hTie
        · exact ⟨_, rfl⟩
        · exact absurd (hHash hTie.1) hTie.2
        · exact ⟨_, rfl⟩
    rcases hStep with ⟨next, hStep⟩
    exact ⟨next, by rw [foldlM_append, hBest, ok_bind, foldlM_cons, hStep]; rfl⟩

theorem exists_foldlM_of_sorted
  (hSorted : files.Pairwise fun first second => second.count ≤ first.count)
  (hAgree : ∀ file other, Largest files file → Largest files other →
    file.firstHeight = other.firstHeight → file.fileHash = other.fileHash) :
  ∃ best, files.foldlM keepBest [] = .ok best := by
  apply exists_foldlM
  rintro before file after rfl kept hKept hFst hCount
  have hCovers : ∀ old ∈ before ++ file :: after, old.firstHeight = kept.firstHeight →
      old.count ≤ kept.count := by
    intro old hOld hOldFst
    rcases mem_append.mp hOld with hOld | hOld
    · exact hKept.covers old hOld hOldFst
    · rw [hCount]
      rcases mem_cons.mp hOld with rfl | hOld
      · exact le_rfl
      · exact (pairwise_cons.mp (pairwise_append.mp hSorted).2.1).1 old hOld
  refine hAgree kept file ⟨mem_append_left _ hKept.mem, hCovers⟩ ⟨by simp, ?_⟩ hFst
  rwa [← hFst, ← hCount]

theorem Largest.perm (hPerm : others.Perm files) (hLargest : Largest others file) :
  Largest files file :=
  ⟨hPerm.mem_iff.mp hLargest.mem, fun old hOld => hLargest.covers old (hPerm.mem_iff.mpr hOld)⟩

theorem Largest.count_eq (hFile : Largest files file) (hOther : Largest files other)
  (hFst : file.firstHeight = other.firstHeight) : file.count = other.count :=
  Nat.le_antisymm (hOther.covers file hFile.mem hFst) (hFile.covers other hOther.mem hFst.symm)

theorem Keeps.exists_current (hKeeps : Keeps files best) (hLargest : Largest files file) :
  ∃ current, bestAt best file.firstHeight = some current ∧ Largest files current ∧
    file.firstHeight = current.firstHeight ∧ file.count = current.count ∧
      file.fileHash = current.fileHash := by
  rcases hKeeps.kept file hLargest.mem with ⟨current, hAt, hHash⟩
  have hCur := hKeeps.largest _ _ hAt
  have hFst := (firstHeight_of_bestAt hAt).symm
  have hCount := hLargest.count_eq hCur hFst
  exact ⟨current, hAt, hCur, hFst, hCount, hHash hCount⟩

theorem Keeps.hash_eq (hKeeps : Keeps files best) (hFile : Largest files file)
  (hOther : Largest files other) (hFst : file.firstHeight = other.firstHeight) :
  file.fileHash = other.fileHash := by
  rcases hKeeps.exists_current hFile with ⟨current, hAt, _, _, _, hHash⟩
  rcases hKeeps.exists_current hOther with ⟨second, hSnd, _, _, _, hOtherHash⟩
  rw [← hFst, hAt] at hSnd
  cases hSnd
  rw [hHash, hOtherHash]

theorem foldlM_pair_ne_ok
  (hFst : file.firstHeight = other.firstHeight) (hCount : file.count = other.count)
  (hHash : file.fileHash ≠ other.fileHash) :
  (file :: other :: files).foldlM keepBest [] ≠ .ok best := by
  intro hRun
  change ([file, other] ++ files).foldlM _ _ = _ at hRun
  rw [foldlM_append] at hRun
  rcases bind_eq_ok_iff.mp hRun with ⟨before, hPre, _⟩
  apply hHash ((keeps_foldlM hPre).hash_eq ⟨by simp, ?_⟩ ⟨by simp, ?_⟩ hFst)
  · simp [hCount]
  · simp [hCount]

-- Files of Every Order

def FilesChosen (Chosen : BulkHeaderFileInfo → Prop) :
  Nat → List BulkHeaderFileInfo → Prop
| height, [] => ∀ file, Chosen file → file.firstHeight ≠ height
| height, file :: files =>
  file.firstHeight = height ∧ Chosen file ∧ FilesChosen Chosen (height + file.count) files

theorem Keeps.filesChosen (hKeeps : Keeps files best) {turns : Nat} {visited : List Nat}
  (hNodup : visited.Nodup)
  (hVisited : ∀ earlier ∈ visited, earlier < height ∧ earlier ∈ best.map (·.firstHeight))
  (hTurns : best.length < visited.length + turns) :
  FilesChosen (Largest files) height (selectFrom (bestAt best) turns height) := by
  induction turns generalizing height visited with
  | zero =>
    have hLen := (hNodup.subperm fun earlier hEarlier => (hVisited earlier hEarlier).2).length_le
    rw [length_map] at hLen
    omega
  | succ turns ih =>
    unfold selectFrom
    cases hAt : bestAt best height with
    | none =>
      intro file hLargest hFst
      rcases hKeeps.kept file hLargest.mem with ⟨current, hCur, _⟩
      rw [hFst, hAt] at hCur
      cases hCur
    | some choice =>
      have hPos := choice.count_pos
      refine ⟨firstHeight_of_bestAt hAt, hKeeps.largest _ _ hAt, ?_⟩
      apply ih (nodup_cons.mpr ⟨fun hMem => (hVisited height hMem).1.false, hNodup⟩)
      · rintro earlier (_ | ⟨_, hEarlier⟩)
        · exact ⟨by omega, mem_keys_iff.mpr (by rw [hAt]; rfl)⟩
        · have hPre := hVisited earlier hEarlier
          exact ⟨by omega, hPre.2⟩
      · rw [length_cons]
        omega

def Unambiguous (files : List BulkHeaderFileInfo) : Prop :=
  ∀ file ∈ files, ∀ other ∈ files, file.firstHeight = other.firstHeight →
    file.count = other.count → file.fileHash = other.fileHash ∧ (Largest files file → file = other)

theorem Keeps.bestAt_iff (hKeeps : Keeps files best) (hUnique : Unambiguous files) :
  bestAt best height = some file ↔ file.firstHeight = height ∧ Largest files file := by
  constructor
  · exact fun hAt => ⟨firstHeight_of_bestAt hAt, hKeeps.largest _ _ hAt⟩
  · rintro ⟨rfl, hLargest⟩
    rcases hKeeps.exists_current hLargest with ⟨current, hAt, hCur, hFst, hCount, _⟩
    rw [hAt, (hUnique file hLargest.mem current hCur.mem hFst hCount).2 hLargest]

theorem Keeps.selectFrom_eq
  (hKeeps : Keeps files best) (hNext : Keeps others next) (hPerm : others.Perm files)
  (hUnique : Unambiguous files) :
  selectFrom (bestAt next) (next.length + 1) 0 = selectFrom (bestAt best) (best.length + 1) 0 := by
  have hUniqueOth : Unambiguous others :=
    fun file hFile other hOther hHeight hCount =>
      (hUnique file (hPerm.mem_iff.mp hFile) other (hPerm.mem_iff.mp hOther) hHeight
        hCount).imp_right fun hEq hLargest => hEq (hLargest.perm hPerm)
  have hAt : bestAt next = bestAt best := by
    funext height
    ext file
    rw [hNext.bestAt_iff hUniqueOth, hKeeps.bestAt_iff hUnique]
    exact and_congr_right fun _ => ⟨.perm hPerm, .perm hPerm.symm⟩
  have hKeys : (next.map (·.firstHeight)).Perm (best.map (·.firstHeight)) :=
    (perm_ext_iff_of_nodup hNext.nodup hKeeps.nodup).mpr fun height => by
      rw [mem_keys_iff, mem_keys_iff, hAt]
  have hLen := hKeys.length_eq
  rw [length_map, length_map] at hLen
  rw [hAt, hLen]

-- Manifests

variable
    {entries rest : List ManifestEntry} {chain maxPerFile : JsValue}

def admitFile (chain maxPerFile : JsValue) (entry : ManifestEntry) : Option BulkHeaderFileInfo :=
  (normalizeEntry entry).toOption.filter fun file =>
    supportedChain chain = some file.chain ∧
      (integerIn 1 maxBulkFileHeaders maxPerFile).any (file.count ≤ ·.val)

def admitted (entries : List ManifestEntry) (chain maxPerFile : JsValue) :
  List BulkHeaderFileInfo :=
  entries.filterMap (admitFile chain maxPerFile)

section

variable (entries : List ManifestEntry) (chain maxPerFile : JsValue)

structure ValidCall : Prop where
  chain : (supportedChain chain).isSome = true
  most : (integerIn 1 maxBulkFileHeaders maxPerFile).isSome = true
  length : entries.length ≤ 10000
  normal : ∀ entry ∈ entries, (normalizeEntry entry).toOption.isSome = true

structure SelectionHolds : Prop where
  order : ∀ others, others.Perm entries →
    (selectBulkHeaderFiles others chain maxPerFile).toOption =
      (selectBulkHeaderFiles entries chain maxPerFile).toOption
  chosen : ∀ selected, selectBulkHeaderFiles entries chain maxPerFile = .ok selected →
    FilesChosen (Largest (admitted entries chain maxPerFile)) 0 selected
  ambiguous : ∀ file other, Largest (admitted entries chain maxPerFile) file →
    Largest (admitted entries chain maxPerFile) other → file.firstHeight = other.firstHeight →
      file ≠ other → (selectBulkHeaderFiles entries chain maxPerFile).toOption = none

def Refused : Prop :=
  ¬ValidCall entries chain maxPerFile ∨ ∃ file other,
    Largest (admitted entries chain maxPerFile) file ∧
      Largest (admitted entries chain maxPerFile) other ∧
        file.firstHeight = other.firstHeight ∧ file.fileHash ≠ other.fileHash

end

theorem required_eq_ok_iff {α : Type} {read : Option α} {value : α} {parameter mustBe : String} :
  required read parameter mustBe = .ok value ↔ read = some value := by
  cases read <;> simp [required]

section

variable
    {supported : Chain} {most : {value : Nat // 1 ≤ value}}
    (hChain : supportedChain chain = some supported)
    (hMost : integerIn 1 maxBulkFileHeaders maxPerFile = some most)

include hChain hMost

theorem admit_of_normal {entry : ManifestEntry} (hNormal : normalizeEntry entry = .ok file) :
  admitFile chain maxPerFile entry =
    if file.chain ≠ supported ∨ most.val < file.count then none else some file := by
  rw [admitFile, hNormal, hChain, hMost, Except.toOption, filter_some]
  by_cases hFits : file.chain ≠ supported ∨ most.val < file.count
  · rw [if_pos hFits, if_neg]
    intro hAll
    simp only [Option.some.injEq, any_some, decide_eq_true_eq] at hAll
    exact hFits.elim (fun hOther => hOther hAll.1.symm) (Nat.not_lt.mpr hAll.2)
  · rw [if_neg hFits, if_pos]
    rw [not_or, not_not, Nat.not_lt] at hFits
    simp [hFits]

theorem foldlM_selectStep : entries.foldlM (selectStep supported most) best = .ok next ↔
    (∀ entry ∈ entries, (normalizeEntry entry).toOption.isSome = true) ∧
      (admitted entries chain maxPerFile).foldlM keepBest best = .ok next := by
  induction entries generalizing best with
  | nil => simp [admitted]
  | cons entry rest ih =>
    rw [foldlM_cons, forall_mem_cons, admitted, selectStep]
    cases hNormal : normalizeEntry entry with
    | error error => simp [Except.toOption]
    | ok file =>
      have hAdmit := admit_of_normal hChain hMost hNormal
      rw [ok_bind, Except.toOption, isSome_some, eq_self, true_and]
      split_ifs at hAdmit ⊢ with hFits
      · rw [pure_eq_ok, ok_bind, ih, filterMap_cons_none hAdmit]
        rfl
      · rw [filterMap_cons_some hAdmit, foldlM_cons]
        cases keepBest best file with
        | error error => simp
        | ok after =>
          rw [ok_bind, ok_bind, ih]
          rfl

end

theorem selectBulkHeaderFiles_eq_ok_iff {selected : List BulkHeaderFileInfo} :
  selectBulkHeaderFiles entries chain maxPerFile = .ok selected ↔
    ValidCall entries chain maxPerFile ∧ ∃ best,
      (admitted entries chain maxPerFile).foldlM keepBest [] = .ok best ∧
        selected = selectFrom (bestAt best) (best.length + 1) 0 := by
  simp only [selectBulkHeaderFiles, bind_eq_ok_iff, required_eq_ok_iff]
  constructor
  · rintro ⟨supported, hChain, most, hMost, hOut⟩
    split_ifs at hOut with hLen
    rcases bind_eq_ok_iff.mp hOut with ⟨best, hBest, hSel⟩
    rw [foldlM_selectStep hChain hMost] at hBest
    exact ⟨⟨by rw [hChain]; rfl, by rw [hMost]; rfl, Nat.le_of_not_lt hLen, hBest.1⟩, best, hBest.2,
      (Except.ok.inj hSel).symm⟩
  · rintro ⟨hValid, best, hBest, rfl⟩
    rcases isSome_iff_exists.mp hValid.chain with ⟨supported, hChain⟩
    rcases isSome_iff_exists.mp hValid.most with ⟨most, hMost⟩
    refine ⟨supported, hChain, most, hMost, ?_⟩
    rw [if_neg (Nat.not_lt.mpr hValid.length),
      (foldlM_selectStep hChain hMost).mpr ⟨hValid.normal, hBest⟩]
    rfl

theorem ValidCall.perm {others : List ManifestEntry} (hPerm : others.Perm entries)
  (hValid : ValidCall entries chain maxPerFile) : ValidCall others chain maxPerFile :=
  ⟨hValid.chain, hValid.most, by rw [hPerm.length_eq]; exact hValid.length,
    fun entry hEntry => hValid.normal entry (hPerm.mem_iff.mp hEntry)⟩

theorem Refused.toOption_eq_none {others : List ManifestEntry}
  (hRefused : Refused entries chain maxPerFile) (hPerm : others.Perm entries) :
  (selectBulkHeaderFiles others chain maxPerFile).toOption = none := by
  cases hOut : selectBulkHeaderFiles others chain maxPerFile with
  | error => rfl
  | ok selected =>
    rcases selectBulkHeaderFiles_eq_ok_iff.mp hOut with ⟨hValid, best, hBest, _⟩
    rcases hRefused with hInvalid | ⟨file, other, hFile, hOther, hFst, hHash⟩
    · exact absurd (hValid.perm hPerm.symm) hInvalid
    · have hFiles := (hPerm.filterMap (admitFile chain maxPerFile)).symm
      exact absurd ((keeps_foldlM hBest).hash_eq (.perm hFiles hFile) (.perm hFiles hOther) hFst)
        hHash

theorem exists_perm_pair {first second : ManifestEntry} (hFst : first ∈ entries)
  (hSnd : second ∈ entries) (hNe : second ≠ first) :
  ∃ rest, (first :: second :: rest).Perm entries := by
  classical
  exact ⟨_, ((perm_cons_erase ((mem_erase_of_ne hNe).mpr hSnd)).symm.cons first).trans
    (perm_cons_erase hFst).symm⟩

theorem exists_perm_sorted (entries : List ManifestEntry) (chain maxPerFile : JsValue) :
  ∃ others : List ManifestEntry, others.Perm entries ∧
    (admitted others chain maxPerFile).Pairwise fun first second => second.count ≤ first.count := by
  let countOf (entry : ManifestEntry) : Nat :=
    ((admitFile chain maxPerFile entry).map (·.count)).getD 0
  refine ⟨_, mergeSort_perm entries fun first second => countOf second ≤ countOf first, ?_⟩
  refine pairwise_filterMap.mpr (List.Pairwise.imp ?_ (pairwise_mergeSort ?_ ?_ entries))
  · intro first second hLe file hFile other hOther
    simpa [countOf, hFile, hOther] using hLe
  · intro first second third hLe hNext
    simp only [decide_eq_true_eq] at hLe hNext ⊢
    exact hNext.trans hLe
  · intro first second
    simpa using Nat.le_total (countOf second) (countOf first)

theorem selectBulkHeaderFiles_iff (entries : List ManifestEntry) (chain maxPerFile : JsValue) :
  SelectionHolds entries chain maxPerFile ↔
    Refused entries chain maxPerFile ∨ Unambiguous (admitted entries chain maxPerFile) := by
  by_cases hRefused : Refused entries chain maxPerFile
  · have hNone := hRefused.toOption_eq_none (.refl entries)
    refine iff_of_true ⟨fun others hPerm => ?_, fun selected hOk => ?_, fun _ _ _ _ _ _ => hNone⟩
      (Or.inl hRefused)
    · rw [hRefused.toOption_eq_none hPerm, hNone]
    · rw [hOk] at hNone
      cases hNone
  rw [or_iff_right hRefused]
  simp only [Refused, not_or, not_exists, not_and, not_not] at hRefused
  rcases hRefused with ⟨hValid, hAgree⟩
  have hSelect : ∀ {others : List ManifestEntry} {best}, others.Perm entries →
      (admitted others chain maxPerFile).foldlM keepBest [] = .ok best →
        selectBulkHeaderFiles others chain maxPerFile =
          .ok (selectFrom (bestAt best) (best.length + 1) 0) :=
    fun hPerm hBest => selectBulkHeaderFiles_eq_ok_iff.mpr ⟨hValid.perm hPerm, _, hBest, rfl⟩
  constructor
  · intro hHold file hFile other hOther hHeight hCount
    rcases exists_perm_sorted entries chain maxPerFile with ⟨sorted, hPerm, hSorted⟩
    have hFiles := hPerm.filterMap (admitFile chain maxPerFile)
    rcases exists_foldlM_of_sorted hSorted fun file other hFile hOther =>
      hAgree file other (.perm hFiles hFile) (.perm hFiles hOther) with ⟨best, hBest⟩
    have hSome := hHold.order sorted hPerm
    rw [hSelect hPerm hBest] at hSome
    refine ⟨?_, fun hLargest => ?_⟩
    · by_contra hHash
      rcases List.mem_filterMap.mp hFile with ⟨first, hFst, hFileOf⟩
      rcases List.mem_filterMap.mp hOther with ⟨second, hSnd, hOtherOf⟩
      have hNe : second ≠ first := by
        rintro rfl
        cases hFileOf.symm.trans hOtherOf
        exact hHash rfl
      rcases exists_perm_pair hFst hSnd hNe with ⟨rest, hPair⟩
      have hBoth := (hHold.order _ hPair).trans hSome.symm
      cases hOut : selectBulkHeaderFiles (first :: second :: rest) chain maxPerFile with
      | error =>
        rw [hOut] at hBoth
        cases hBoth
      | ok selected =>
        rcases selectBulkHeaderFiles_eq_ok_iff.mp hOut with ⟨_, after, hRun, _⟩
        rw [admitted, List.filterMap_cons_some hFileOf, List.filterMap_cons_some hOtherOf] at hRun
        exact foldlM_pair_ne_ok hHeight hCount hHash hRun
    · by_contra hNe
      have hOtherLargest : Largest (admitted entries chain maxPerFile) other := by
        refine ⟨hOther, fun old hOld hOldHeight => ?_⟩
        rw [← hCount]
        exact hLargest.covers old hOld (hOldHeight.trans hHeight.symm)
      rw [hHold.ambiguous file other hLargest hOtherLargest hHeight hNe] at hSome
      cases hSome
  · intro hUnique
    have hRun : ∀ {others : List ManifestEntry}, others.Perm entries →
        ∃ best, (admitted others chain maxPerFile).foldlM keepBest [] = .ok best := by
      intro others hPerm
      have hFiles := hPerm.filterMap (admitFile chain maxPerFile)
      refine exists_foldlM fun before file after hSplit kept hKept hHeight hCount => ?_
      change admitted others chain maxPerFile = _ at hSplit
      rw [← admitted, hSplit] at hFiles
      exact (hUnique kept (hFiles.mem_iff.mp (List.mem_append_left _ hKept.mem)) file
        (hFiles.mem_iff.mp (by simp)) hHeight hCount).1
    rcases hRun (.refl entries) with ⟨best, hBest⟩
    have hKeeps := keeps_foldlM hBest
    have hFiles := hSelect (.refl entries) hBest
    refine ⟨fun others hPerm => ?_, fun selected hOk => ?_,
      fun file other hFile hOther hHeight hNe => ?_⟩
    · rcases hRun hPerm with ⟨next, hNext⟩
      rw [hSelect hPerm hNext, hFiles,
        hKeeps.selectFrom_eq (keeps_foldlM hNext) (hPerm.filterMap _) hUnique]
    · rw [hFiles] at hOk
      cases hOk
      exact hKeeps.filesChosen (List.nodup_nil (α := Nat)) (fun _ hEarlier => (nomatch hEarlier))
        (by simp)
    · exact absurd ((hUnique file hFile.mem other hOther.mem hHeight
        (hFile.count_eq hOther hHeight)).2 hFile) hNe

/- Two files of one header with two hashes, or a longer one. -/
def manifestEntry (count : Nat) (hash : String) : ManifestEntry :=
  .object fun name =>
    if name = "chain" then .data (.string (Json.text "main"))
    else if name = "count" then .data (.integer count)
    else if name = "firstHeight" then .data (.integer 0)
    else if name = "fileName" then .data (.string (Json.text "f"))
    else if name = "fileHash" then
      .data (.string (Json.text (hash ++ "AAAAAAAAAAAAAAAAAAAAAAAAAAAAAAAAAAAAAAAAAA=")))
    else if name ∈ ["prevHash", "lastHash", "prevChainWork", "lastChainWork"] then
      .data (.string (List.replicate 64 48))
    else .absent

theorem selection_depends_on_order :
  ¬∀ entries chain maxPerFile, SelectionHolds entries chain maxPerFile := by
  intro hHold
  have hOrder := (hHold [manifestEntry 1 "A", manifestEntry 1 "B", manifestEntry 2 "A"]
    (.string (Json.text "main")) (.integer 2)).order
    [manifestEntry 1 "A", manifestEntry 2 "A", manifestEntry 1 "B"] (.cons _ (.swap _ _ _))
  have hSome := congrArg Option.isSome hOrder
  revert hSome
  decide +kernel

end TsStack.Chaintracks
