import TsStack.Chaintracks.BulkFileSpans

/-
  What reads of bulk headers return while merges come
  between their awaits.

  A read's buffer is filled up to a height: it is no shorter
  than the headers up to it, and it is right if it is no
  longer.  A file that is read again after a merge makes it
  longer, and the read throws.
-/

-- The Invariant of Reads

open List Option

namespace TsStack.Chaintracks

/-
  A buffer that is filled up to a height: it is no shorter,
  and what it holds is right if it is no longer.
-/
structure Fills (chain : HeaderBytes) (first next : Nat) (filled : Bytes) : Prop where
  length_ge : (next - first) * 80 ≤ filled.length
  exact : filled.length = (next - first) * 80 → filled = headersFrom chain first (next - first)

def partFirst (file : BulkFileSpan) (nextHeight : Nat) : Nat :=
  max file.firstHeight nextHeight

def partNext (file : BulkFileSpan) (lastHeight : Nat) : Nat :=
  min file.nextHeight (lastHeight + 1)

structure Follows
  (chain : HeaderBytes) (nextHeight lastHeight : Nat) (filled : Bytes) (file : BulkFileSpan)
  (offset length : Nat) : Prop where
  filled_to : ∃ next, Fills chain nextHeight next filled ∧ partFirst file nextHeight ≤ next ∧
        next ≤ partNext file lastHeight
  nonempty : partFirst file nextHeight < partNext file lastHeight
  offset_eq : offset = (partFirst file nextHeight - file.firstHeight) * 80
  length_eq : length = (partNext file lastHeight - partFirst file nextHeight) * 80

/- What holds while a read waits. -/
inductive AwaitHolds
  (chain : HeaderBytes) (nextHeight lastHeight : Nat) (filled : Bytes) : Await → Prop where
| firstFile
    (hFilled : filled = []) :
    AwaitHolds chain nextHeight lastHeight filled .firstFile
| fileData
    {file : BulkFileSpan} {offset length : Nat}
    (hFollows : Follows chain nextHeight lastHeight filled file offset length) :
    AwaitHolds chain nextHeight lastHeight filled (.fileData file offset length)
| loading
    {file snapshot : BulkFileSpan} {offset length : Nat}
    (hFollows : Follows chain nextHeight lastHeight filled file offset length)
    (hFirst : snapshot.firstHeight = file.firstHeight) (hCount : file.count ≤ snapshot.count) :
    AwaitHolds chain nextHeight lastHeight filled (.loading file snapshot offset length)
| nextFile
    {height : Nat} (hFills : Fills chain nextHeight (min height (lastHeight + 1)) filled)
    (hHeight : nextHeight < height) :
    AwaitHolds chain nextHeight lastHeight filled (.nextFile height)

/- A read in progress is within the range. -/
structure CallHolds (chain : HeaderBytes) (reader : BulkFileDataReader) (world : ReadWorld)
  (call : ReadCall) : Prop where
  next_le : world.nextHeight ≤ call.lastHeight
  last_lt : call.lastHeight < reader.endHeight
  length_le : call.filled.length ≤ world.bufferLength call.lastHeight
  await : AwaitHolds chain world.nextHeight call.lastHeight call.filled call.await

structure ReadInvariant
  (chain : HeaderBytes) (reader : BulkFileDataReader) (world : ReadWorld) : Prop where
  files : FilesFrom 0 world.files
  range : reader.endHeight ≤ filesEnd world.files
  min_le : reader.minHeight ≤ world.nextHeight
  next_le : world.nextHeight ≤ max reader.minHeight reader.endHeight
  returned : world.returned.flatten = headersFrom chain reader.minHeight
        (world.nextHeight - reader.minHeight)
  ended : world.ended = true → reader.endHeight ≤ world.nextHeight
  call : ∀ call ∈ world.call, CallHolds chain reader world call

section

variable
    {chain : HeaderBytes} {reader : BulkFileDataReader} {world : ReadWorld} {call : ReadCall}

section

variable (hInv : ReadInvariant chain reader world)

include hInv

theorem ReadInvariant.throws : ReadInvariant chain reader world.throws := by
  refine { hInv with call := ?_ }
  intro call hCall
  cases hCall

theorem ReadInvariant.continue (hCall : CallHolds chain reader world call) :
  ReadInvariant chain reader { world with call := some call } := by
  refine { hInv with call := ?_ }
  intro other hOther
  rw [← Option.some.inj hOther]
  exact { hCall with }

theorem ReadInvariant.finish (hCall : CallHolds chain reader world call)
  (hFills : Fills chain world.nextHeight (call.lastHeight + 1) call.filled) :
  ReadInvariant chain reader (world.finish call) := by
  have hLen : call.filled.length = world.bufferLength call.lastHeight :=
    Nat.le_antisymm hCall.length_le hFills.length_ge
  have hNext := hCall.next_le
  have hLast := hCall.last_lt
  have hMin := hInv.min_le
  have hBuffer : world.bufferLength call.lastHeight ≠ 0 := by
    unfold ReadWorld.bufferLength
    omega
  unfold ReadWorld.finish
  rw [if_pos ⟨hBuffer, hLen⟩]
  constructor
  case files => exact hInv.files
  case range => exact hInv.range
  case min_le =>
    dsimp only
    omega
  case next_le =>
    dsimp only
    omega
  case returned =>
    dsimp only
    rw [flatten_append, flatten_singleton, hInv.returned, hFills.exact hLen]
    have hStart : world.nextHeight = reader.minHeight + (world.nextHeight - reader.minHeight) := by
      omega
    have hCount : call.lastHeight + 1 - reader.minHeight = (world.nextHeight - reader.minHeight) +
            (call.lastHeight + 1 - world.nextHeight) := by
      omega
    rw [hCount, ← headersFrom_append, ← hStart]
  case ended =>
    intro hEnded
    have hOld := hInv.ended hEnded
    dsimp only
    omega
  case call =>
    intro other hOther
    cases hOther

end

variable {file : BulkFileSpan}

/-
  A file that holds a height up to which the read is filled
  follows, or the read is filled to its end.
-/
theorem ReadInvariant.enterFile
  (hInv : ReadInvariant chain reader world) {lastHeight : Nat} {filled : Bytes}
  {await : Await} (hNext : world.nextHeight ≤ lastHeight) (hLast : lastHeight < reader.endHeight)
  (hLen : filled.length ≤ world.bufferLength lastHeight)
  (hAwait : AwaitHolds chain world.nextHeight lastHeight filled await) {height : Nat}
  (hHeight : world.nextHeight ≤ height) (hFirst : file.firstHeight ≤ height)
  (hFile : height < file.nextHeight)
  (hFills : Fills chain world.nextHeight (min height (lastHeight + 1)) filled) :
  ReadInvariant chain reader (world.enterFile ⟨lastHeight, filled, await⟩ file) := by
  unfold ReadWorld.enterFile
  dsimp only
  split_ifs with hEmpty
  · have hDone : min height (lastHeight + 1) = lastHeight + 1 := by omega
    rw [hDone] at hFills
    exact hInv.finish ⟨hNext, hLast, hLen, hAwait⟩ hFills
  · have hFollows : Follows chain world.nextHeight lastHeight filled file
          ((max file.firstHeight world.nextHeight - file.firstHeight) * 80)
          ((min file.nextHeight (lastHeight + 1) -
            max file.firstHeight world.nextHeight) * 80) := by
      constructor
      case filled_to =>
        refine ⟨_, hFills, ?_, ?_⟩
        · unfold partFirst
          omega
        · unfold partNext
          omega
      case nonempty => exact Nat.not_le.mp hEmpty
      case offset_eq => rfl
      case length_eq => rfl
    exact hInv.continue ⟨hNext, hLast, hLen, .fileData hFollows⟩

theorem getDataFromFileNoLock_of_follows
  {filled : Bytes} {nextHeight lastHeight : Nat} {snapshot : BulkFileSpan} {offset length : Nat}
  (hFollows : Follows chain nextHeight lastHeight filled file offset length)
  (hFirst : snapshot.firstHeight = file.firstHeight) (hCount : file.count ≤ snapshot.count) :
  getDataFromFileNoLock chain snapshot (some offset) (some length) =
    some (headersFrom chain (partFirst file nextHeight)
      (partNext file lastHeight - partFirst file nextHeight)) := by
  rw [hFollows.offset_eq, hFollows.length_eq]
  have hPart := hFollows.nonempty
  have hLe : file.firstHeight ≤ partFirst file nextHeight := Nat.le_max_left _ _
  have hNext : partNext file lastHeight ≤ file.nextHeight := Nat.min_le_left _ _
  unfold BulkFileSpan.nextHeight at hNext
  unfold getDataFromFileNoLock
  dsimp only [getD_some]
  rw [if_neg (by omega), Nat.min_eq_left (by omega), slice_headersFrom chain (by omega), hFirst]
  congr 2
  omega

theorem Fills.append
  {filled : Bytes} {nextHeight lastHeight : Nat} {file : BulkFileSpan} {offset length : Nat}
  (hFollows : Follows chain nextHeight lastHeight filled file offset length) :
  Fills chain nextHeight (partNext file lastHeight) (filled ++
      headersFrom chain (partFirst file nextHeight)
        (partNext file lastHeight - partFirst file nextHeight)) := by
  rcases hFollows.filled_to with ⟨next, hFills, hFirst, hNext⟩
  have hPart := hFollows.nonempty
  have hLen := hFills.length_ge
  have hMin : nextHeight ≤ partFirst file nextHeight := Nat.le_max_right _ _
  constructor
  case length_ge =>
    rw [length_append, length_headersFrom]
    omega
  case exact =>
    intro hExact
    rw [length_append, length_headersFrom] at hExact
    have hSame : next = partFirst file nextHeight := by omega
    subst hSame
    have hFilled := hFills.exact (by omega)
    have hStart : partFirst file nextHeight =
          nextHeight + (partFirst file nextHeight - nextHeight) := by
      omega
    rw [hFilled]
    conv_lhs => rw [hStart]
    rw [Nat.add_sub_cancel_left, headersFrom_append]
    congr 1
    omega

theorem ReadInvariant.setBuffer
  (hInv : ReadInvariant chain reader world) (hCall : CallHolds chain reader world call)
  {offset length : Nat}
  (hFollows : Follows chain world.nextHeight call.lastHeight call.filled file offset length) :
  ReadInvariant chain reader (world.setBuffer call file
      (some (headersFrom chain (partFirst file world.nextHeight)
        (partNext file call.lastHeight - partFirst file world.nextHeight)))) := by
  have hPart := hFollows.nonempty
  have hMin : world.nextHeight ≤ partFirst file world.nextHeight := Nat.le_max_right _ _
  unfold ReadWorld.setBuffer
  dsimp only
  split_ifs with hLong
  · exact hInv.throws
  · apply hInv.continue
    constructor
    case next_le => exact hCall.next_le
    case last_lt => exact hCall.last_lt
    case length_le =>
      dsimp only
      rw [length_append]
      exact Nat.not_lt.mp hLong
    case await =>
      apply AwaitHolds.nextFile
      · exact Fills.append hFollows
      · have hNext : partNext file call.lastHeight ≤ file.nextHeight := Nat.min_le_left _ _
        omega

theorem fills_nil (chain : HeaderBytes) (height : Nat) : Fills chain height height [] := by
  constructor
  case length_ge =>
    rw [Nat.sub_self]
    exact Nat.le_refl 0
  case exact =>
    intro _
    rw [Nat.sub_self]
    rfl

theorem BulkFileDataReader.size_pos (reader : BulkFileDataReader) : 80 ≤ reader.maxBufferSize := by
  have hChecked := reader.checked
  unfold checkReader at hChecked
  split_ifs at hChecked with hRange hSize
  omega

theorem ReadInvariant.read (hInv : ReadInvariant chain reader world) :
  ReadInvariant chain reader (world.read reader) := by
  unfold ReadWorld.read
  split_ifs with hEnd
  · exact
      { hInv with
        ended := fun _ => hEnd
        call := fun call hCall => { hInv.call call hCall with } }
  · have hSize : 1 ≤ reader.maxBufferSize / 80 := by
      have hPos := reader.size_pos
      omega
    apply hInv.continue
    constructor
    case next_le =>
      dsimp only
      omega
    case last_lt =>
      dsimp only
      omega
    case length_le => exact Nat.zero_le _
    case await => exact .firstFile rfl

end

-- Runs of Reads

def fileOfHeight (files : List BulkFileSpan) (height : Nat) : Option BulkFileSpan :=
  (getBfdForHeight files height).toOption.join

/-
  The file that a descriptor is resolved to begins where the
  descriptor does, unless it is refused for its count.
-/
def StartsThere (files : List BulkFileSpan) (file : BulkFileSpan) : Prop :=
  ∀ resolved ∈ fileOfHeight files file.firstHeight,
    resolved.count < file.count ∨ resolved.firstHeight = file.firstHeight

instance
  (files : List BulkFileSpan) (file : BulkFileSpan) : Decidable (StartsThere files file) :=
  inferInstanceAs (Decidable (∀ _ ∈ fileOfHeight _ _, _ ∨ _))

/- The file that a call of the manager resolves begins there. -/
def AwaitMeets (files : List BulkFileSpan) : Await → Prop
| .fileData file _ _ => StartsThere files file
| _ => True

instance
  (files : List BulkFileSpan) (await : Await) : Decidable (AwaitMeets files await) :=
  match await with
  | .firstFile => isTrue trivial
  | .fileData _ _ _ => inferInstanceAs (Decidable (StartsThere _ _))
  | .loading _ _ _ _ => isTrue trivial
  | .nextFile _ => isTrue trivial

def ReadMeets (world : ReadWorld) : ReadEvent → Prop
| .advance => ∀ call ∈ world.call, AwaitMeets world.files call.await
| _ => True

instance
  (world : ReadWorld) (event : ReadEvent) : Decidable (ReadMeets world event) :=
  match event with
  | .merge _ => isTrue trivial
  | .read => isTrue trivial
  | .advance => inferInstanceAs (Decidable (∀ call ∈ world.call, AwaitMeets _ _))
  | .fail => isTrue trivial

variable
    {files : List BulkFileSpan} {file snapshot : BulkFileSpan}

theorem resolveFile_eq_ok (hResolve : resolveFile files file = .ok snapshot) :
  getBfdForHeight files file.firstHeight = .ok (some snapshot) ∧ file.count ≤ snapshot.count := by
  unfold resolveFile at hResolve
  cases hFile : getBfdForHeight files file.firstHeight with
  | error fault =>
    rw [hFile] at hResolve
    cases hResolve
  | ok found =>
    rw [hFile] at hResolve
    cases found with
    | none => cases hResolve
    | some resolved =>
      change (if resolved.count < file.count then _
        else _) = Except.ok snapshot at hResolve
      split_ifs at hResolve with hCount
      cases hResolve
      exact ⟨rfl, Nat.not_lt.mp hCount⟩

variable {offset length : Option Nat}

theorem snapshotFor_eq_ok (hSnap : snapshotFor files file offset length = .ok snapshot) :
  resolveFile files file = .ok snapshot := by
  unfold snapshotFor at hSnap
  cases hOff : checkWindow "offset" offset with
  | error fault =>
    rw [hOff] at hSnap
    cases hSnap
  | ok _ =>
    rw [hOff] at hSnap
    cases hLen : checkWindow "length" length with
    | error fault =>
      rw [hLen] at hSnap
      cases hSnap
    | ok _ =>
      rw [hLen] at hSnap
      exact hSnap

/- What is resolved begins where its descriptor does. -/
theorem firstHeight_snapshotFor (hMeets : StartsThere files file)
  (hSnap : snapshotFor files file offset length = .ok snapshot) :
  snapshot.firstHeight = file.firstHeight ∧ file.count ≤ snapshot.count := by
  rcases resolveFile_eq_ok (snapshotFor_eq_ok hSnap) with ⟨hFile, hCount⟩
  have hFound : fileOfHeight files file.firstHeight = some snapshot := by
    unfold fileOfHeight
    rw [hFile]
    rfl
  rcases hMeets snapshot hFound with hFew | hFirst
  · exact absurd hFew (Nat.not_lt.mpr hCount)
  · exact ⟨hFirst, hCount⟩

section

variable
    {chain : HeaderBytes} {reader : BulkFileDataReader} {world : ReadWorld} {call : ReadCall}

theorem ReadInvariant.advance
  (hInv : ReadInvariant chain reader world) (hCall : CallHolds chain reader world call)
  (hMeets : AwaitMeets world.files call.await) :
  ReadInvariant chain reader (world.advance chain call) := by
  rcases call with ⟨lastHeight, filled, await⟩
  rcases hCall with ⟨hNext, hLast, hLen, hAwait⟩
  dsimp only at hNext hLast hLen hAwait hMeets
  unfold ReadWorld.advance
  cases hAwait with
  | firstFile hFilled =>
    dsimp only
    split
    · rename_i file hFile
      rcases getBfdForHeight_eq_some hFile with ⟨_, hFirst, hIn⟩
      apply hInv.enterFile hNext hLast hLen (.firstFile hFilled) (Nat.le_refl _) hFirst hIn
      rw [Nat.min_eq_left (by omega), hFilled]
      exact fills_nil chain _
    · exact hInv.throws
  | fileData hFollows =>
    dsimp only
    split
    · rename_i snapshot hSnap
      rcases firstHeight_snapshotFor hMeets hSnap with ⟨hFirst, hCount⟩
      exact hInv.continue ⟨hNext, hLast, hLen, .loading hFollows hFirst hCount⟩
    · exact hInv.throws
  | loading hFollows hFirst hCount =>
    dsimp only
    rw [getDataFromFileNoLock_of_follows hFollows hFirst hCount]
    exact hInv.setBuffer ⟨hNext, hLast, hLen, .loading hFollows hFirst hCount⟩ hFollows
  | nextFile hFills hHeight =>
    rename_i height
    dsimp only
    split
    · rename_i file hFile
      rcases getBfdForHeight_eq_some hFile with ⟨_, hFirst, hIn⟩
      exact hInv.enterFile hNext hLast hLen
        (.nextFile hFills hHeight) (Nat.le_of_lt hHeight) hFirst hIn hFills
    · rename_i hNone
      have hEnd := getBfdForHeight_eq_none hInv.files hNone
      have hRange := hInv.range
      have hDone : min height (lastHeight + 1) = lastHeight + 1 := by omega
      rw [hDone] at hFills
      exact hInv.finish ⟨hNext, hLast, hLen, .nextFile (hDone.symm ▸ hFills) hHeight⟩
        hFills
    · exact hInv.throws

theorem ReadInvariant.step
  (hInv : ReadInvariant chain reader world) {event : ReadEvent} {next : ReadWorld}
  (hStep : readStep chain reader world event = some next) (hMeets : ReadMeets world event) :
  ReadInvariant chain reader next := by
  cases event with
  | merge merge =>
    rcases map_eq_some_iff.mp hStep with ⟨files, hMerge, rfl⟩
    rcases mergeSpans_spec hInv.files hMerge with ⟨hFiles, hEnd⟩
    exact
      { hInv with
        files := hFiles
        range := Nat.le_trans hInv.range hEnd
        call := fun call hCall => { hInv.call call hCall with } }
  | read =>
    unfold readStep at hStep
    dsimp only at hStep
    split at hStep
    · cases hStep
      exact hInv.read
    · cases hStep
  | advance =>
    rcases map_eq_some_iff.mp hStep with ⟨call, hCall, rfl⟩
    exact hInv.advance (hInv.call call hCall) (hMeets call hCall)
  | fail =>
    rcases map_eq_some_iff.mp hStep with ⟨_, _, rfl⟩
    exact hInv.throws

theorem ReadInvariant.start {files : List BulkFileSpan} (hFiles : FilesFrom 0 files)
  (hRange : reader.endHeight ≤ filesEnd files) :
  ReadInvariant chain reader (reader.start files) := by
  constructor
  case files => exact hFiles
  case range => exact hRange
  case min_le => exact Nat.le_refl _
  case next_le => exact Nat.le_max_left _ _
  case returned =>
    change [] = headersFrom chain reader.minHeight (reader.minHeight - reader.minHeight)
    rw [Nat.sub_self]
    rfl
  case ended =>
    intro hEnded
    cases hEnded
  case call =>
    intro call hCall
    cases hCall

end

def bytesFrom (chain : HeaderBytes) (position length : Nat) : Bytes :=
  (List.range' position length).map chain

theorem slice_bytesFrom (chain : HeaderBytes) (position length offset count : Nat) :
  ((bytesFrom chain position length).drop offset).take count =
    bytesFrom chain (position + offset) (min count (length - offset)) := by
  unfold bytesFrom
  rw [← map_drop, ← map_take, drop_range', Nat.mul_one]
  rcases Nat.le_total count (length - offset) with hShort | hLong
  · rw [take_range'_of_length_ge hShort, Nat.min_eq_left hShort]
  · rw [take_range'_of_length_le hLong, Nat.min_eq_right hLong]

theorem getDataFromFile_of_startsThere
  {chain : HeaderBytes} {data : Bytes} (hMeets : StartsThere files file)
  (hData : getDataFromFile chain files file offset length = .ok (some data)) :
  data = bytesFrom chain (file.firstHeight * 80 + offset.getD 0)
      data.length := by
  unfold getDataFromFile at hData
  cases hSnap : snapshotFor files file offset length with
  | error fault =>
    rw [hSnap] at hData
    cases hData
  | ok snapshot =>
    rw [hSnap] at hData
    have hSlice :
      getDataFromFileNoLock chain snapshot offset length = some data := Except.ok.inj hData
    rw [← (firstHeight_snapshotFor hMeets hSnap).1]
    unfold getDataFromFileNoLock at hSlice
    dsimp only at hSlice
    split_ifs at hSlice
    rw [← Option.some.inj hSlice]
    change ((bytesFrom chain _ _).drop _).take _ = _
    rw [slice_bytesFrom]
    unfold headersFrom bytesFrom
    simp only [length_take, length_drop, length_map, length_range']

end TsStack.Chaintracks
