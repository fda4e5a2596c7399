import TsStack.Chaintracks.Storage

/-
  Reads of bulk header files by `BulkFileDataReader.ts`, with
  the files of `BulkFileDataManager.ts` changing between its
  awaits.

  A file is modeled by the heights it spans, and its data by
  the bytes of the headers of those heights, eighty to each.
  A load of the data can fail, and then the read throws.
-/

-- Files and Merges

namespace TsStack.Chaintracks

structure BulkFileSpan where
  firstHeight : Nat
  count : Nat
deriving DecidableEq, Repr

def BulkFileSpan.nextHeight (file : BulkFileSpan) : Nat :=
  file.firstHeight + file.count

variable (files : List BulkFileSpan)

def filesEnd : Nat :=
  (files.map (·.count)).sum

abbrev HeaderBytes := Nat → UInt8

def headersFrom (chain : HeaderBytes) (height count : Nat) : Bytes :=
  (List.range' (height * 80) (count * 80)).map chain

def maxBulkFileHeaders : Nat := 100000

def maxBlockHeight : Nat := 0x7fffffff

/-
  What a merge does to the files, by the count of the file that is merged: `add`, the updates of
  the last file, and the update of the file before an incremental one.
-/
inductive BulkMerge where
| add (count : Nat)
| growLast (count : Nat)
| splitLast (count : Nat)
| shiftLast (count : Nat)
deriving DecidableEq, Repr

def mergeSpans :
  BulkMerge → Option (List BulkFileSpan)
| .add count =>
  if 1 ≤ count ∧ count ≤ maxBulkFileHeaders then some (files ++ [⟨filesEnd files, count⟩])
  else none
| .growLast count =>
  match files.reverse with
  | [] => none
  | last :: others =>
    if last.count ≤ count ∧ count ≤ maxBulkFileHeaders then
      some (others.reverse ++ [⟨last.firstHeight, count⟩])
    else none
| .splitLast count =>
  match files.reverse with
  | [] => none
  | last :: others =>
    if 1 ≤ count ∧ count < last.count then
      -- `shiftWork` without a replaced file.
      some (others.reverse ++
        [⟨last.firstHeight, count⟩, ⟨last.firstHeight + count, last.count - count⟩])
    else none
| .shiftLast count =>
  match files.reverse with
  | last :: penultimate :: others =>
    if count ≤ penultimate.count ∨ maxBulkFileHeaders < count then none
    else if penultimate.count + last.count ≤ count then
      -- `dropLastBulkFile`.
      some (others.reverse ++ [⟨penultimate.firstHeight, count⟩])
    else
      -- `shiftWork` with the replaced file.
      some (others.reverse ++
        [⟨penultimate.firstHeight, count⟩, ⟨last.firstHeight + (count - penultimate.count),
            last.count - (count - penultimate.count)⟩])
  | _ => none

-- Data of Files

def getBfdForHeight (height : Nat) :
  Except ChaintracksError (Option BulkFileSpan) :=
  if height > maxBlockHeight then
    .error (.invalidParameter "height" s!"an integer from 0 through 2147483647 ({height}).")
  else
    .ok (files.find? fun file =>
      decide (file.firstHeight ≤ height) && decide (height < file.nextHeight))

def checkWindow (name : String) (value : Option Nat) : Except ChaintracksError Unit :=
  if value.any (maxBulkFileHeaders * 80 < ·) then
    .error (.invalidParameter name s!"an integer from 0 through {maxBulkFileHeaders * 80}")
  else .ok ()

/- The descriptor that `getDataFromFile` resolves. -/
def resolveFile (file : BulkFileSpan) :
  Except ChaintracksError BulkFileSpan := do
  match ← getBfdForHeight files file.firstHeight with
  | some resolved =>
    if resolved.count < file.count then
      .error (.invalidParameter "file" (s!"a match for {file.firstHeight}, {file.count} " ++
          "in the BulkFileDataManager."))
    else .ok resolved
  | none =>
    .error (.invalidParameter "file" (s!"a match for {file.firstHeight}, {file.count} " ++
        "in the BulkFileDataManager."))

def getDataFromFileNoLock
  (chain : HeaderBytes) (snapshot : BulkFileSpan) (offset length : Option Nat) : Option Bytes :=
  let fileLength := snapshot.count * 80
  let offset := offset.getD 0
  if fileLength ≤ offset then none
  else
    let length := min (length.getD (fileLength - offset)) (fileLength - offset)
    some (((headersFrom chain snapshot.firstHeight snapshot.count).drop offset).take length)

/- The snapshot that `getDataFromFile` takes. -/
def snapshotFor (file : BulkFileSpan) (offset length : Option Nat) :
  Except ChaintracksError BulkFileSpan := do
  checkWindow "offset" offset
  checkWindow "length" length
  resolveFile files file

/- `getDataFromFile`, while its files do not change. -/
def getDataFromFile (chain : HeaderBytes) (files : List BulkFileSpan) (file : BulkFileSpan)
  (offset length : Option Nat) :
  Except ChaintracksError (Option Bytes) := do
  let snapshot ← snapshotFor files file offset length
  return getDataFromFileNoLock chain snapshot offset length

-- Reads

def checkReader (range : HeightRange) (maxBufferSize : Nat) : Except ChaintracksError Unit :=
  if range.minHeight < 0 ∨ range.minHeight > maxBlockHeight ∨
      range.maxHeight < -1 ∨ range.maxHeight > maxBlockHeight then
    .error (.invalidParameter "range" "supported safe-integer block heights")
  else if maxBufferSize < 80 ∨ maxBufferSize > maxBulkFileHeaders * 80 ∨ maxBufferSize % 80 ≠ 0 then
    .error (.invalidParameter "maxBufferSize" "a multiple of 80 bytes from 80 through 8000000")
  else .ok ()

structure BulkFileDataReader where
  range : HeightRange
  maxBufferSize : Nat
  checked : checkReader range maxBufferSize = .ok ()

def BulkFileDataReader.minHeight (reader : BulkFileDataReader) : Nat :=
  reader.range.minHeight.toNat

def BulkFileDataReader.endHeight (reader : BulkFileDataReader) : Nat :=
  (reader.range.maxHeight + 1).toNat

/- What a read waits for. -/
inductive Await where
-- `getFileForHeight` of the first height
| firstFile
-- the descriptor of a file, then its data
| fileData (file : BulkFileSpan) (offset length : Nat)
| loading (file snapshot : BulkFileSpan) (offset length : Nat)
-- `getFileForHeight` of the height after a file
| nextFile (height : Nat)
deriving DecidableEq, Repr

structure ReadCall where
  lastHeight : Nat
  filled : Bytes
  await : Await
deriving DecidableEq, Repr

/-
  The files, the reader's next height, its read in progress,
  the buffers it returned, and whether it returned none.
-/
structure ReadWorld where
  files : List BulkFileSpan
  nextHeight : Nat
  call : Option ReadCall := none
  returned : List Bytes := []
  ended : Bool := false
deriving DecidableEq, Repr

def BulkFileDataReader.start
  (reader : BulkFileDataReader) (files : List BulkFileSpan) : ReadWorld where
  files := files
  nextHeight := reader.minHeight

variable (world : ReadWorld)

def ReadWorld.throws : ReadWorld :=
  { world with call := none }

def ReadWorld.bufferLength (lastHeight : Nat) : Nat :=
  (lastHeight + 1 - world.nextHeight) * 80

def ReadWorld.finish (call : ReadCall) : ReadWorld :=
  let bufferLength := world.bufferLength call.lastHeight
  if bufferLength ≠ 0 ∧ call.filled.length = bufferLength then
    { world with
      call := none
      nextHeight := call.lastHeight + 1
      returned := world.returned ++ [call.filled] }
  else { world with call := none, ended := true }

/- `readBufferFromFile`, up to its call of the manager. -/
def ReadWorld.enterFile (call : ReadCall) (file : BulkFileSpan) : ReadWorld :=
  let first := max file.firstHeight world.nextHeight
  let next := min file.nextHeight (call.lastHeight + 1)
  if next ≤ first then world.finish call
  else
    { world with
      call := some { call with
        await := .fileData file ((first - file.firstHeight) * 80) ((next - first) * 80) } }

def ReadWorld.read (reader : BulkFileDataReader) : ReadWorld :=
  if reader.endHeight ≤ world.nextHeight then { world with ended := true }
  else
    { world with
      call := some
        { lastHeight := min (world.nextHeight + reader.maxBufferSize / 80 - 1)
              (reader.endHeight - 1)
          filled := []
          await := .firstFile } }

def ReadWorld.setBuffer (call : ReadCall) (file : BulkFileSpan) : Option Bytes → ReadWorld
| none => world.finish call
| some buffer =>
  if world.bufferLength call.lastHeight < call.filled.length + buffer.length then
    -- `buffers.set` throws a `RangeError`.
    world.throws
  else
    { world with
      call := some { call with
        filled := call.filled ++ buffer
        await := .nextFile file.nextHeight } }

def ReadWorld.advance (chain : HeaderBytes) (world : ReadWorld) (call : ReadCall) : ReadWorld :=
  match call.await with
  | .firstFile =>
    match getBfdForHeight world.files world.nextHeight with
    | .ok (some file) => world.enterFile call file
    | _ => world.throws
  | .fileData file offset length =>
    match snapshotFor world.files file (some offset) (some length) with
    | .ok snapshot =>
      { world with
        call := some { call with
          await := .loading file snapshot offset length } }
    | .error _ => world.throws
  | .loading file snapshot offset length =>
    world.setBuffer call file (getDataFromFileNoLock chain snapshot (some offset) (some length))
  | .nextFile height =>
    match getBfdForHeight world.files height with
    | .ok (some file) => world.enterFile call file
    | .ok none => world.finish call
    | .error _ => world.throws

/- Merges come between the awaits of the reads. -/
inductive ReadEvent where
| merge (merge : BulkMerge)
| read
| advance
| fail
deriving DecidableEq, Repr

def readStep (chain : HeaderBytes) (reader : BulkFileDataReader)
  (world : ReadWorld) : ReadEvent → Option ReadWorld
| .merge merge => (mergeSpans world.files merge).map fun files => { world with files := files }
| .read =>
  match world.call with
  | none => some (world.read reader)
  | some _ => none
| .advance => world.call.map (world.advance chain)
| .fail => world.call.map fun _ => world.throws

end TsStack.Chaintracks
