import TsStack.Chaintracks.BulkReads
import TsStack.Lib.EventRun

/-
  Reads of bulk headers return exactly the headers of the
  range, and of files that do not change they deliver all.
-/

-- Reads of Files That Do Not Change

namespace TsStack.Chaintracks

/- Reading on: a read is made, or goes on with what it needs. -/
def ReadWorld.drive
  (chain : HeaderBytes) (reader : BulkFileDataReader) (world : ReadWorld) : ReadWorld :=
  match world.call with
  | none => world.read reader
  | some call => world.advance chain call

inductive AwaitStays
  (files : List BulkFileSpan) (nextHeight lastHeight : Nat) (filled : Bytes) : Await → Prop where
| firstFile
    (hFilled : filled = []) :
    AwaitStays files nextHeight lastHeight filled .firstFile
| fileData
    {file : BulkFileSpan} {offset length : Nat} (hFile : file ∈ files)
    (hFilled : filled.length = (partFirst file nextHeight - nextHeight) * 80) :
    AwaitStays files nextHeight lastHeight filled (.fileData file offset length)
| loading
    {file : BulkFileSpan} {offset length : Nat} (hFile : file ∈ files)
    (hFilled : filled.length = (partFirst file nextHeight - nextHeight) * 80) :
    AwaitStays files nextHeight lastHeight filled (.loading file file offset length)
| nextFile
    {file : BulkFileSpan} (hFile : file ∈ files)
    (hFilled : filled.length = (partNext file lastHeight - nextHeight) * 80) :
    AwaitStays files nextHeight lastHeight filled (.nextFile file.nextHeight)

def Await.left (filesEnd : Nat) : Await → Nat
| .firstFile => 3 * filesEnd + 4
| .fileData file _ _ => 3 * (filesEnd - file.firstHeight) + 2
| .loading file _ _ _ => 3 * (filesEnd - file.firstHeight) + 1
| .nextFile height => 3 * (filesEnd - height) + 3

def ReadWorld.left (reader : BulkFileDataReader) (world : ReadWorld) : Nat :=
  (reader.endHeight - world.nextHeight) * (3 * filesEnd world.files + 6) +
    match world.call with
    | none => 3 * filesEnd world.files + 5
    | some call => call.await.left (filesEnd world.files)

structure StaysReading
  (chain : HeaderBytes) (reader : BulkFileDataReader) (world : ReadWorld) : Prop where
  invariant : ReadInvariant chain reader world
  end_le : filesEnd world.files ≤ maxBlockHeight
  await : ∀ call ∈ world.call, AwaitStays world.files world.nextHeight
        call.lastHeight call.filled call.await

structure Progress
  (chain : HeaderBytes) (reader : BulkFileDataReader) (world next : ReadWorld) : Prop where
  stays : StaysReading chain reader next
  left : next.ended = true ∨ next.left reader < world.left reader

variable {files : List BulkFileSpan}

theorem getBfdForHeight_of_lt
  (hFiles : FilesFrom 0 files) (hEnd : filesEnd files ≤ maxBlockHeight) {height : Nat}
  (hHeight : height < filesEnd files) :
  ∃ file ∈ files, getBfdForHeight files height = .ok (some file) ∧
      file.firstHeight ≤ height ∧ height < file.nextHeight := by
  have hFound : ∃ found, getBfdForHeight files height = .ok found := by
    unfold getBfdForHeight
    rw [if_neg (by omega)]
    exact ⟨_, rfl⟩
  rcases hFound with ⟨found, hFound⟩
  cases found with
  | none =>
    have hLe := getBfdForHeight_eq_none hFiles hFound
    exact absurd hHeight (Nat.not_lt.mpr hLe)
  | some file =>
    have hFile := getBfdForHeight_eq_some hFound
    exact ⟨file, hFile.1, hFound, hFile.2⟩

variable {file : BulkFileSpan}

section

variable (hFiles : FilesFrom 0 files)

include hFiles

theorem firstHeight_of_next {other : BulkFileSpan} (hFile : file ∈ files)
  (hOther : other ∈ files) (hFst : other.firstHeight ≤ file.nextHeight)
  (hNext : file.nextHeight < other.nextHeight) : other.firstHeight = file.nextHeight := by
  have hSpan := nextHeight_le_of_mem hFiles hFile
  rcases eq_or_apart hFiles hFile hOther with rfl | hAfter | hPre
  · exact absurd hNext (Nat.lt_irrefl _)
  · omega
  · omega

theorem getBfdForHeight_of_mem (hEnd : filesEnd files ≤ maxBlockHeight) (hFile : file ∈ files) :
  getBfdForHeight files file.firstHeight = .ok (some file) := by
  have hSpan := nextHeight_le_of_mem hFiles hFile
  have hHeight : file.firstHeight < filesEnd files := by omega
  rcases getBfdForHeight_of_lt hFiles hEnd hHeight with ⟨other, hOther, hFound, hFst, hNext⟩
  have hOtherSpan := nextHeight_le_of_mem hFiles hOther
  rcases eq_or_apart hFiles hFile hOther with rfl | hAfter | hPre
  · exact hFound
  · omega
  · omega

theorem startsThere_of_mem (hEnd : filesEnd files ≤ maxBlockHeight) (hFile : file ∈ files) :
  StartsThere files file := by
  intro resolved hRes
  unfold fileOfHeight at hRes
  rw [getBfdForHeight_of_mem hFiles hEnd hFile] at hRes
  right
  rw [← Option.some.inj hRes]

theorem snapshotFor_of_mem (hEnd : filesEnd files ≤ maxBlockHeight) (hFile : file ∈ files)
  {offset length : Nat} (hOff : offset ≤ file.count * 80) (hLen : length ≤ file.count * 80) :
  snapshotFor files file (some offset) (some length) = .ok file := by
  have hSpan := nextHeight_le_of_mem hFiles hFile
  have hCheck : ∀ name value, value ≤ file.count * 80 → checkWindow name (some value) = .ok () := by
    intro name value hValue
    unfold checkWindow
    rw [if_neg]
    rw [Option.any_some, decide_eq_true_eq]
    omega
  unfold snapshotFor resolveFile
  rw [hCheck _ _ hOff, hCheck _ _ hLen, getBfdForHeight_of_mem hFiles hEnd hFile]
  exact if_neg (Nat.lt_irrefl _)

end

section

variable
    {chain : HeaderBytes} {reader : BulkFileDataReader} {world : ReadWorld} {lastHeight : Nat}
    {filled : Bytes} {await : Await}

section

variable
    (hStays : StaysReading chain reader world)
    (hCall : CallHolds chain reader world ⟨lastHeight, filled, await⟩)

include hStays hCall

/- A read that is filled makes the range that is left shorter. -/
theorem progress_finish (hFills : Fills chain world.nextHeight (lastHeight + 1) filled) :
  Progress chain reader world (world.finish ⟨lastHeight, filled, await⟩) := by
  have hNext := hCall.next_le
  have hLast := hCall.last_lt
  have hLen : filled.length = world.bufferLength lastHeight :=
    Nat.le_antisymm hCall.length_le hFills.length_ge
  have hBuffer : world.bufferLength lastHeight ≠ 0 := by
    unfold ReadWorld.bufferLength
    dsimp only at hNext
    omega
  have hInv := hStays.invariant.finish hCall hFills
  have hFinish : world.finish ⟨lastHeight, filled, await⟩ =
        { world with
          call := none
          nextHeight := lastHeight + 1
          returned := world.returned ++ [filled] } := by
    unfold ReadWorld.finish
    exact if_pos ⟨hBuffer, hLen⟩
  rw [hFinish] at hInv ⊢
  constructor
  case stays =>
    refine ⟨hInv, hStays.end_le, ?_⟩
    intro call hNone
    cases hNone
  case left =>
    right
    unfold ReadWorld.left
    dsimp only at hNext hLast ⊢
    have hShorter :
        reader.endHeight - (lastHeight + 1) + 1 ≤ reader.endHeight - world.nextHeight := by
      omega
    have hMul := Nat.mul_le_mul_right (3 * filesEnd world.files + 6) hShorter
    rw [Nat.add_mul, Nat.one_mul] at hMul
    omega

theorem progress_enterFile
  (hWorld : world.call = some ⟨lastHeight, filled, await⟩) {file : BulkFileSpan}
  (hFile : file ∈ world.files) {height : Nat} (hHeight : partFirst file world.nextHeight = height)
  (hIn : height < file.nextHeight)
  (hFilled : filled.length = (min height (lastHeight + 1) - world.nextHeight) * 80)
  (hFills : Fills chain world.nextHeight (min height (lastHeight + 1)) filled) (hLeft :
    3 * (filesEnd world.files - file.firstHeight) + 2 < await.left (filesEnd world.files)) :
  Progress chain reader world (world.enterFile ⟨lastHeight, filled, await⟩ file) := by
  have hNext := hCall.next_le
  have hLast := hCall.last_lt
  have hLe : world.nextHeight ≤ height := by
    rw [← hHeight]
    exact Nat.le_max_right _ _
  have hFst : file.firstHeight ≤ height := by
    rw [← hHeight]
    exact Nat.le_max_left _ _
  have hInv := hStays.invariant.enterFile hNext hLast
    hCall.length_le hCall.await hLe hFst hIn hFills
  by_cases hDone : lastHeight < height
  · have hEnter : world.enterFile ⟨lastHeight, filled, await⟩ file =
          world.finish ⟨lastHeight, filled, await⟩ := by
      unfold ReadWorld.enterFile
      apply if_pos
      change _ ≤ partFirst file world.nextHeight
      dsimp only
      omega
    have hMin : min height (lastHeight + 1) = lastHeight + 1 := by omega
    rw [hMin] at hFills
    rw [hEnter]
    exact progress_finish hStays hCall hFills
  · have hPart : ¬partNext file lastHeight ≤ partFirst file world.nextHeight := by
      unfold partNext
      omega
    have hEnter : world.enterFile ⟨lastHeight, filled, await⟩ file =
          { world with
            call := some
              { lastHeight := lastHeight
                filled := filled
                await := .fileData file
                  ((partFirst file world.nextHeight - file.firstHeight) * 80)
                  ((partNext file lastHeight - partFirst file world.nextHeight) * 80) } } := by
      unfold ReadWorld.enterFile
      exact if_neg hPart
    rw [hEnter] at hInv ⊢
    constructor
    case stays =>
      refine ⟨hInv, hStays.end_le, ?_⟩
      intro call hSome
      rw [← Option.some.inj hSome]
      apply AwaitStays.fileData hFile
      dsimp only
      rw [hFilled, hHeight]
      congr 2
      omega
    case left =>
      right
      unfold ReadWorld.left
      dsimp only
      rw [hWorld]
      dsimp only
      exact Nat.add_lt_add_left hLeft _

end

end

section

variable
    {chain : HeaderBytes} {reader : BulkFileDataReader} {world : ReadWorld} {call : ReadCall}

section

variable (hStays : StaysReading chain reader world)

include hStays

theorem StaysReading.read (hCall : world.call = none) :
  Progress chain reader world (world.read reader) := by
  have hInv := hStays.invariant.read
  unfold ReadWorld.read at hInv ⊢
  split_ifs at hInv ⊢ with hEnd
  · constructor
    case stays =>
      refine ⟨hInv, hStays.end_le, ?_⟩
      intro call hSome
      dsimp only at hSome
      rw [hCall] at hSome
      cases hSome
    case left => exact .inl rfl
  · constructor
    case stays =>
      refine ⟨hInv, hStays.end_le, ?_⟩
      intro call hSome
      rw [← Option.some.inj hSome]
      exact .firstFile rfl
    case left =>
      right
      unfold ReadWorld.left
      rw [hCall]
      exact Nat.add_lt_add_left (Nat.lt_succ_self _) _

theorem progress_continue (hWorld : world.call = some call) {next : ReadCall}
  (hInv : ReadInvariant chain reader { world with call := some next })
  (hAwait : AwaitStays world.files world.nextHeight next.lastHeight next.filled next.await)
  (hLeft : next.await.left (filesEnd world.files) < call.await.left (filesEnd world.files)) :
  Progress chain reader world { world with call := some next } := by
  constructor
  case stays =>
    refine ⟨hInv, hStays.end_le, ?_⟩
    intro other hOther
    rw [← Option.some.inj hOther]
    exact hAwait
  case left =>
    right
    unfold ReadWorld.left
    rw [hWorld]
    exact Nat.add_lt_add_left hLeft _

theorem StaysReading.advance (hWorld : world.call = some call) :
  Progress chain reader world (world.advance chain call) := by
  have hCall := hStays.invariant.call call hWorld
  have hAwait := hStays.await call hWorld
  have hFiles := hStays.invariant.files
  have hEnd := hStays.end_le
  have hRange := hStays.invariant.range
  rcases call with ⟨lastHeight, filled, await⟩
  rcases hCall with ⟨hNext, hLast, hLen, hHold⟩
  dsimp only at hNext hLast hLen hHold hAwait
  unfold ReadWorld.advance
  cases hAwait with
  | firstFile hFilled =>
    have hIn : world.nextHeight < filesEnd world.files := by omega
    rcases getBfdForHeight_of_lt hFiles hEnd hIn with ⟨file, hFile, hFound, hFst, hHeight⟩
    dsimp only
    rw [hFound]
    have hMin : min world.nextHeight (lastHeight + 1) =
          world.nextHeight := by
      omega
    apply progress_enterFile hStays ⟨hNext, hLast, hLen, hHold⟩ hWorld hFile
      (Nat.max_eq_right hFst) hHeight
    · rw [hMin, hFilled, Nat.sub_self]
      rfl
    · rw [hMin, hFilled]
      exact fills_nil chain _
    · unfold Await.left
      dsimp only
      omega
  | fileData hFile hFilled =>
    rename_i file offset length
    cases hHold with
    | fileData hFoll =>
      have hSpan := nextHeight_le_of_mem hFiles hFile
      have hPart := hFoll.nonempty
      have hLe : partNext file lastHeight ≤ file.nextHeight := Nat.min_le_left _ _
      have hGe : file.firstHeight ≤ partFirst file world.nextHeight := Nat.le_max_left _ _
      unfold BulkFileSpan.nextHeight at hLe
      have hSnap : snapshotFor world.files file (some offset) (some length) = .ok file := by
        apply snapshotFor_of_mem hFiles hEnd hFile
        · rw [hFoll.offset_eq]
          omega
        · rw [hFoll.length_eq]
          omega
      have hCall : CallHolds chain reader world
          ⟨lastHeight, filled, .fileData file offset length⟩ :=
        ⟨hNext, hLast, hLen, .fileData hFoll⟩
      have hInv := hStays.invariant.advance hCall (startsThere_of_mem hFiles hEnd hFile)
      unfold ReadWorld.advance at hInv
      dsimp only at hInv ⊢
      rw [hSnap] at hInv ⊢
      exact progress_continue hStays hWorld hInv (.loading hFile hFilled) (Nat.lt_succ_self _)
  | loading hFile hFilled =>
    rename_i file offset length
    cases hHold with
    | loading hFoll hFst hCount =>
      have hSpan := nextHeight_le_of_mem hFiles hFile
      have hPart := hFoll.nonempty
      have hGe : world.nextHeight ≤ partFirst file world.nextHeight := Nat.le_max_right _ _
      have hCall : CallHolds chain reader world ⟨lastHeight, filled,
            .loading file file offset length⟩ :=
        ⟨hNext, hLast, hLen, .loading hFoll hFst hCount⟩
      have hInv := hStays.invariant.setBuffer hCall hFoll
      dsimp only
      rw [getDataFromFileNoLock_of_follows hFoll rfl (Nat.le_refl _)]
      have hLe : partNext file lastHeight ≤ lastHeight + 1 := Nat.min_le_right _ _
      have hShort : ¬world.bufferLength lastHeight < filled.length +
              (headersFrom chain (partFirst file world.nextHeight)
                (partNext file lastHeight - partFirst file world.nextHeight)).length := by
        rw [length_headersFrom, hFilled]
        unfold ReadWorld.bufferLength
        omega
      unfold ReadWorld.setBuffer at hInv ⊢
      dsimp only at hInv ⊢
      rw [if_neg hShort] at hInv ⊢
      apply progress_continue hStays hWorld hInv
      · apply AwaitStays.nextFile hFile
        dsimp only
        rw [List.length_append, length_headersFrom, hFilled]
        omega
      · unfold Await.left
        dsimp only
        omega
  | nextFile hFile hFilled =>
    rename_i file
    cases hHold with
    | nextFile hFills hHeight =>
      have hSpan := nextHeight_le_of_mem hFiles hFile
      dsimp only
      by_cases hIn : file.nextHeight < filesEnd world.files
      · rcases getBfdForHeight_of_lt hFiles hEnd hIn with ⟨other, hOther, hFound, hFst, hNextIn⟩
        have hStart := firstHeight_of_next hFiles hFile hOther hFst hNextIn
        rw [hFound]
        dsimp only
        have hPart : partFirst other world.nextHeight =
              file.nextHeight := by
          unfold partFirst
          omega
        apply progress_enterFile hStays ⟨hNext, hLast, hLen, .nextFile hFills hHeight⟩
          hWorld hOther hPart hNextIn hFilled hFills
        unfold Await.left
        dsimp only
        omega
      · have hFound : getBfdForHeight world.files file.nextHeight = .ok none := by
          cases hBfd : getBfdForHeight world.files file.nextHeight with
          | error fault =>
            unfold getBfdForHeight at hBfd
            rw [if_neg (by omega)] at hBfd
            cases hBfd
          | ok found =>
            cases found with
            | none => rfl
            | some other =>
              have hOther := getBfdForHeight_eq_some hBfd
              have hOtherSpan := nextHeight_le_of_mem hFiles hOther.1
              omega
        have hMin : min file.nextHeight (lastHeight + 1) = lastHeight + 1 := by omega
        rw [hFound]
        dsimp only
        rw [hMin] at hFills
        exact progress_finish hStays ⟨hNext, hLast, hLen, .nextFile (hMin.symm ▸ hFills) hHeight⟩
          hFills

theorem StaysReading.drive : Progress chain reader world (world.drive chain reader) := by
  unfold ReadWorld.drive
  cases hCall : world.call with
  | none => exact hStays.read hCall
  | some call => exact hStays.advance hCall

theorem StaysReading.ends :
  ∃ awaits, StaysReading chain reader ((ReadWorld.drive chain reader)^[awaits] world) ∧
      ((ReadWorld.drive chain reader)^[awaits] world).ended = true := by
  induction hLeft : world.left reader using Nat.strong_induction_on generalizing world with
  | _ left ih =>
    rcases hStays.drive with ⟨hNext, hEnded | hLess⟩
    · exact ⟨1, hNext, hEnded⟩
    · rw [hLeft] at hLess
      rcases ih _ hLess hNext rfl with ⟨awaits, hAwaits⟩
      exact ⟨awaits + 1, hAwaits⟩

end

end

-- Bulk Header Reads

def BulkFileDataReader.headers (reader : BulkFileDataReader) (chain : HeaderBytes) : Bytes :=
  headersFrom chain reader.minHeight (reader.endHeight - reader.minHeight)

/-
  The buffers that were returned hold the range's headers in order of height up to the next
  height, and all of them once a read returned none; and the bytes of a file are those that its
  descriptor denotes.
-/
structure ReadsExactly
  (chain : HeaderBytes) (reader : BulkFileDataReader) (world : ReadWorld) : Prop where
  returned : world.returned.flatten = headersFrom chain reader.minHeight
        (world.nextHeight - reader.minHeight)
  ended : world.ended = true → world.returned.flatten = reader.headers chain
  data : ∀ file offset length data, StartsThere world.files file →
        getDataFromFile chain world.files file offset length = .ok (some data) →
          data = bytesFrom chain (file.firstHeight * 80 + offset.getD 0) data.length

theorem ReadInvariant.exactly
  {chain : HeaderBytes} {reader : BulkFileDataReader} {world : ReadWorld}
  (hInv : ReadInvariant chain reader world) : ReadsExactly chain reader world := by
  constructor
  case returned => exact hInv.returned
  case ended =>
    intro hEnded
    have hEnd := hInv.ended hEnded
    have hMin := hInv.min_le
    have hNext := hInv.next_le
    rw [hInv.returned]
    unfold BulkFileDataReader.headers
    congr 1
    omega
  case data =>
    intro file offset length data hMeets hData
    exact getDataFromFile_of_startsThere hMeets hData

/-
  In a run in which every file that is read begins where its descriptor does, reads are exact; and
  of files that do not change, reading on delivers the range.
-/
theorem bulk_reads_exact
  (chain : HeaderBytes) (reader : BulkFileDataReader) (files : List BulkFileSpan)
  (hFiles : FilesFrom 0 files) (hRange : reader.endHeight ≤ filesEnd files) :
  (∀ (events : List ReadEvent) (world : ReadWorld),
    events.foldlM (readStep chain reader) (reader.start files) = some world →
      EventRun.Along (readStep chain reader) (fun world event _ => ReadMeets world event)
          (reader.start files) events →
        ReadsExactly chain reader world) ∧
    (filesEnd files ≤ maxBlockHeight → ∃ awaits,
        ((ReadWorld.drive chain reader)^[awaits] (reader.start files)).ended = true ∧
          ((ReadWorld.drive chain reader)^[awaits] (reader.start files)).returned.flatten =
            reader.headers chain) := by
  have hStart : ReadInvariant chain reader (reader.start files) := ReadInvariant.start hFiles hRange
  constructor
  · intro events world hRun hMeets
    apply ReadInvariant.exactly
    apply EventRun.inv_of_along _ events hStart hRun hMeets
    intro state event next hState hStep hEvent
    exact hState.step hStep hEvent
  · intro hEnd
    have hStays : StaysReading chain reader (reader.start files) := by
      refine ⟨hStart, hEnd, ?_⟩
      intro call hCall
      cases hCall
    rcases hStays.ends with ⟨awaits, hLast, hEnded⟩
    exact ⟨awaits, hEnded, hLast.invariant.exactly.ended hEnded⟩

-- A Grown File

def heightBytes : HeaderBytes :=
  fun position => UInt8.ofNat (position / 80)

theorem laterReader_checked : checkReader ⟨2, 3⟩ 160 = .ok () := by
  decide

def laterReader : BulkFileDataReader where
  range := ⟨2, 3⟩
  maxBufferSize := 160
  checked := laterReader_checked

def twoFiles : List BulkFileSpan := [⟨0, 2⟩, ⟨2, 2⟩]

theorem filesFrom_twoFiles : FilesFrom 0 twoFiles :=
  ⟨rfl, by decide, by decide, rfl, by decide, by decide, trivial⟩

/-
  The CDN file grows by the first header of the incremental
  file, after the reader looked its file up.
-/
def growsBeforeLoad : List ReadEvent :=
  [.read, .advance, .merge (.shiftLast 3), .advance, .advance, .advance]

def growsWhileLoading : List ReadEvent :=
  [.read, .advance, .advance, .merge (.shiftLast 3), .advance, .advance]

def readWorld (height : Nat) : ReadWorld where
  files := [⟨0, 3⟩, ⟨3, 1⟩]
  nextHeight := 4
  returned := [headersFrom heightBytes height 2]

/- A file that grows while it is loaded is read as it was. -/
theorem bulk_reads_exact_twoFiles :
  ReadsExactly heightBytes laterReader (readWorld 2) ∧ ∃ awaits,
      ((ReadWorld.drive heightBytes laterReader)^[awaits]
          (laterReader.start twoFiles)).ended = true ∧
        ((ReadWorld.drive heightBytes laterReader)^[awaits]
            (laterReader.start twoFiles)).returned.flatten =
          laterReader.headers heightBytes := by
  have hReads := bulk_reads_exact heightBytes laterReader twoFiles filesFrom_twoFiles (by decide)
  exact ⟨hReads.1 growsWhileLoading (readWorld 2) (by decide +kernel) (by decide +kernel),
    hReads.2 (by decide)⟩

/-
  A file that grows before it is loaded is the one that holds the first height then, and the
  offset into it is the one of the file before: the first two headers are returned.
-/
theorem bulk_reads_not_exact :
  ¬∀ (events : List ReadEvent) (world : ReadWorld),
    events.foldlM (readStep heightBytes laterReader) (laterReader.start twoFiles) = some world →
      ReadsExactly heightBytes laterReader world := by
  intro hExact
  have hRun :
      growsBeforeLoad.foldlM (readStep heightBytes laterReader) (laterReader.start twoFiles) =
        some (readWorld 0) := by
    decide +kernel
  have hReturned := (hExact _ _ hRun).returned
  have hHead := congrArg List.head? hReturned
  revert hHead
  decide +kernel

end TsStack.Chaintracks
