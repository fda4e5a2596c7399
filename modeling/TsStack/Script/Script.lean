import TsStack.Primitives.ScriptNum
import TsStack.Script.Chunks

/-
  The `Script` class of `script/Script.ts` with its lazily
  parsed chunks and its serialization caches.

  A mutator that throws has no resulting script.
-/

-- State and Constructors

namespace TsStack

/-
  The private fields of `Script`.  The chunk snapshot keeps the chunks themselves: no mutator
  edits a chunk in place, so equality stands for the identity the source compares.
-/
structure Script where
  chunkArray : ChunkArray
  parsed : Bool
  rawBytesCache : Option Bytes
  hexCache : Option JsString
  chunkCacheState : Option ChunkArray
deriving DecidableEq, Repr

namespace Script

def ofChunks (chunks : List ScriptChunk) : Script where
  chunkArray := chunks.map some
  parsed := true
  rawBytesCache := none
  hexCache := none
  chunkCacheState := none

def fromBinary (bin : Bytes) : Script where
  chunkArray := []
  parsed := false
  rawBytesCache := some bin
  hexCache := none
  chunkCacheState := none

def fromBinaryView (bin : Bytes) : Script :=
  fromBinary bin

def fromHex (hex : JsString) : Except JsError Script :=
  if hex.length = 0 then .ok (fromBinary [])
  else if hex.length % 2 ≠ 0 then
    .error (.error ("There is an uneven number of characters in the " ++
        "string which suggests it is not hex encoded."))
  else
    match hexToUint8Array hex with
    | .error _ => .error (.error ("Some elements in this string are not hex " ++ "encoded."))
    | .ok rawBytes =>
      .ok
        { fromBinary rawBytes with
          hexCache := some (hex.map Char.toLower) }

-- Lazy Parsing and Serialization

variable (script : Script)

def ensureParsed : Script :=
  if script.parsed then script
  else
    let chunks : ChunkArray :=
      match script.rawBytesCache with
      | some raw => (parseChunks raw).map some
      | none => []
    { script with
      chunkArray := chunks
      parsed := true
      chunkCacheState := some chunks }

def chunks : ChunkArray :=
  script.ensureParsed.chunkArray

def invalidateSerializationCaches : Script :=
  { script with
    rawBytesCache := none
    hexCache := none
    chunkCacheState := none }

def setChunks (value : ChunkArray) : Script :=
  { script with chunkArray := value, parsed := true }
    |>.invalidateSerializationCaches

def snapshotMatches :
  ChunkArray → ChunkArray → Except JsError Bool
| [], _ => .ok true
| _, [] => .ok true
| none :: _, _ => .error (holeError "ref")
| some state :: states, chunk :: chunks =>
  if some state = chunk then snapshotMatches states chunks
  else .ok false

def chunkCacheMatchesState : Except JsError Bool :=
  match script.chunkCacheState with
  | none => .ok false
  | some states =>
    if states.length ≠ script.chunkArray.length then .ok false
    else snapshotMatches states script.chunkArray

/- `#getSerializedBytes` with the caches it leaves. -/
def getSerializedBytes : Except JsError (Bytes × Script) :=
  match script.parsed, script.rawBytesCache with
  | false, some raw => .ok (raw, script)
  | _, _ => do
      let script := script.ensureParsed
      let current ←
        match script.rawBytesCache with
        | none => pure none
        | some raw => do
            let fresh ← script.chunkCacheMatchesState
            pure (if fresh then some raw else none)
      match current with
      | some raw => return (raw, script)
      | none => do
          let bytes ← serializeChunksToBytes script.chunkArray
          return (bytes,
            { script with
              rawBytesCache := some bytes
              hexCache := none
              chunkCacheState := some script.chunkArray })

def toBinary : Except JsError Bytes := do
  let result ← script.getSerializedBytes
  return result.1

def toHex (script : Script) : Except JsError JsString := do
  let result ← script.getSerializedBytes
  return result.2.hexCache.getD (TsStack.toHex result.1)

-- Mutators

/- `this.chunks.push(chunk)`. -/
def pushChunk (chunk : ScriptChunk) : Script :=
  { script.ensureParsed with
    chunkArray := script.chunks ++ [some chunk] }

def writeOpCode (op : Nat) : Script :=
  script.invalidateSerializationCaches.pushChunk { op := op }

def assignElement (chunks : ChunkArray) (i : Nat) (chunk : ScriptChunk) : ChunkArray :=
  if i < chunks.length then chunks.set i (some chunk)
  else chunks ++ List.replicate (i - chunks.length) none ++ [some chunk]

def setChunkOpCode (i op : Nat) : Script :=
  let script := script.invalidateSerializationCaches.ensureParsed
  { script with
    chunkArray := assignElement script.chunkArray i { op := op } }

/- The chunk `writeBin` pushes for a byte string. -/
def binChunk (bin : Bytes) : Except JsError ScriptChunk :=
  let data := if 0 < bin.length then some bin else none
  if 0 < bin.length ∧ bin.length < OP.OP_PUSHDATA1 then .ok { op := bin.length, data := data }
  else if bin.length = 0 then .ok { op := OP.OP_0, data := data }
  else if bin.length < 2 ^ 8 then .ok { op := OP.OP_PUSHDATA1, data := data }
  else if bin.length < 2 ^ 16 then .ok { op := OP.OP_PUSHDATA2, data := data }
  else if bin.length < 2 ^ 32 then .ok { op := OP.OP_PUSHDATA4, data := data }
  else .error (.error "You can't push that much data")

def writeBin (bin : Bytes) : Except JsError Script := do
  let script := script.invalidateSerializationCaches
  let chunk ← binChunk bin
  return script.pushChunk chunk

def writeBn (bn : Int) : Except JsError Script :=
  let script := script.invalidateSerializationCaches
  if bn = 0 then .ok (script.pushChunk { op := OP.OP_0 })
  else if bn = -1 then .ok (script.pushChunk { op := OP.OP_1NEGATE })
  else if 1 ≤ bn ∧ bn ≤ 16 then .ok (script.pushChunk { op := bn.toNat + OP.OP_1 - 1 })
  else script.writeBin (toSm bn)

def writeNumber (num : Int) : Except JsError Script := do
  let script := script.invalidateSerializationCaches
  if isSafeInteger num.natAbs then script.writeBn num
  else .error (.error "The number is larger than 2 ^ 53 (unsafe)")

def serializedChunkPrefix (chunk : ScriptChunk) : Option (List Nat) :=
  let dataLength := (chunk.data.getD []).length
  if dataLength = 0 ∨ chunk.op = OP.OP_RETURN ∨ chunk.op < OP.OP_PUSHDATA1 then some [chunk.op]
  else if chunk.op = OP.OP_PUSHDATA1 then
    some (chunk.op :: (LittleEndian.leBytes 1 dataLength).map UInt8.toNat)
  else if chunk.op = OP.OP_PUSHDATA2 then
    some (chunk.op :: (LittleEndian.leBytes 2 dataLength).map UInt8.toNat)
  else if chunk.op = OP.OP_PUSHDATA4 then
    some (chunk.op :: (LittleEndian.leBytes 4 dataLength).map UInt8.toNat)
  else none

def chunkMatchesBytes (chunk : ScriptChunk) (targetBytes : Bytes) : Bool :=
  match serializedChunkPrefix chunk with
  | none => false
  | some bytes => targetBytes.map UInt8.toNat = bytes ++ (chunk.data.getD []).map UInt8.toNat

/- The splicing loop of `findAndDelete`. -/
def deleteMatching (targetBytes : Bytes) :
  ChunkArray → Except JsError ChunkArray
| [] => .ok []
| none :: _ => .error (holeError "data")
| some chunk :: chunks => do
    let rest ← deleteMatching targetBytes chunks
    if chunkMatchesBytes chunk targetBytes then return rest
    else return some chunk :: rest

inductive Argument where
| this
| other (script : Script)
deriving DecidableEq, Repr

def writeScript (argument : Argument) : Script :=
  let script := script.invalidateSerializationCaches
  match argument with
  | .this => script.ensureParsed.setChunks (script.chunks ++ script.chunks)
  | .other other => script.ensureParsed.setChunks (script.chunks ++ other.chunks)

/- The loop of `findAndDelete` over `this.chunks`. -/
def spliceMatching (targetBytes : Bytes) : Except JsError Script := do
  let script := script.ensureParsed
  let chunks ← deleteMatching targetBytes script.chunkArray
  return { script with chunkArray := chunks }

def findAndDelete (argument : Argument) : Except JsError Script := do
  let script := script.invalidateSerializationCaches
  let (targetBytes, script) ←
    match argument with
    | .this => script.getSerializedBytes
    | .other other => do
        let targetBytes ← other.toBinary
        pure (targetBytes, script)
  if targetBytes.length = 0 then return script
  else script.spliceMatching targetBytes

end Script

inductive ScriptEdit where
| writeScript (argument : Script.Argument)
| writeOpCode (op : Nat)
| setChunkOpCode (i op : Nat)
| writeBn (bn : Int)
| writeBin (bin : Bytes)
| writeNumber (num : Int)
| findAndDelete (argument : Script.Argument)
deriving DecidableEq, Repr

namespace ScriptEdit

/- Call the mutator. -/
def run (script : Script) :
  ScriptEdit → Except JsError Script
| .writeScript argument => .ok (script.writeScript argument)
| .writeOpCode op => .ok (script.writeOpCode op)
| .setChunkOpCode i op => .ok (script.setChunkOpCode i op)
| .writeBn bn => script.writeBn bn
| .writeBin bin => script.writeBin bin
| .writeNumber num => script.writeNumber num
| .findAndDelete argument => script.findAndDelete argument

/- Call mutators one after another. -/
def runAll (script : Script) :
  List ScriptEdit → Except JsError Script
| [] => .ok script
| edit :: edits => do
    let script ← edit.run script
    runAll script edits

end ScriptEdit

-- The Edits on a Chunk List

/- The chunk `writeBn` appends for an integer. -/
def bnChunk (bn : Int) : Except JsError ScriptChunk :=
  if bn = 0 then .ok { op := OP.OP_0 }
  else if bn = -1 then .ok { op := OP.OP_1NEGATE }
  else if 1 ≤ bn ∧ bn ≤ 16 then .ok { op := bn.toNat + OP.OP_1 - 1 }
  else Script.binChunk (toSm bn)

namespace Script

def Argument.chunksFor (chunks : ChunkArray) : Argument → ChunkArray
| .this => chunks
| .other script => script.chunks

def Argument.bytesFor (chunks : ChunkArray) :
  Argument → Except JsError Bytes
| .this => serializeChunksToBytes chunks
| .other script => script.toBinary

end Script

namespace ScriptEdit

def onChunks (chunks : ChunkArray) :
  ScriptEdit → Except JsError ChunkArray
| .writeScript argument => .ok (chunks ++ argument.chunksFor chunks)
| .writeOpCode op => .ok (chunks ++ [some { op := op }])
| .setChunkOpCode i op => .ok (Script.assignElement chunks i { op := op })
| .writeBn bn => do
    let chunk ← bnChunk bn
    return chunks ++ [some chunk]
| .writeBin bin => do
    let chunk ← Script.binChunk bin
    return chunks ++ [some chunk]
| .writeNumber num =>
  if isSafeInteger num.natAbs then do
    let chunk ← bnChunk num
    return chunks ++ [some chunk]
  else .error (.error "The number is larger than 2 ^ 53 (unsafe)")
| .findAndDelete argument => do
    let targetBytes ← argument.bytesFor chunks
    if targetBytes.length = 0 then return chunks
    else Script.deleteMatching targetBytes chunks

def onChunksAll (chunks : ChunkArray) :
  List ScriptEdit → Except JsError ChunkArray
| [] => .ok chunks
| edit :: edits => do
    let chunks ← edit.onChunks chunks
    onChunksAll chunks edits

end ScriptEdit

end TsStack
