import TsStack.Lib.LittleEndian
import TsStack.Primitives.Hex
import TsStack.Script.OP

/-
  Script chunks and their byte codec in `script/Script.ts`.

  A chunk array may have holes, because an element can be
  assigned past the end; a hole is `none`.
-/

-- Chunks

open List

namespace TsStack

/- `ScriptChunk` of `script/ScriptChunk.ts`. -/
structure ScriptChunk where
  op : Nat
  data : Option Bytes := none
  invalidLength : Option Bool := none
deriving DecidableEq, Repr

/- A chunk array; `none` is a hole. -/
abbrev ChunkArray := List (Option ScriptChunk)

def holeError (property : String) : JsError :=
  .typeError ("Cannot read properties of undefined (reading '" ++ property ++ "')")

-- Serialization

open LittleEndian

def computeSerializedLength :
  ChunkArray → Except JsError Nat
| [] => .ok 0
| none :: _ => .error (holeError "data")
| some chunk :: chunks =>
  match chunk.data with
  | none => do
      let total ← computeSerializedLength chunks
      return 1 + total
  | some data =>
    if chunk.op = OP.OP_RETURN then .ok (1 + data.length)
    else do
      let total ← computeSerializedLength chunks
      if chunk.op < OP.OP_PUSHDATA1 then return 1 + data.length + total
      else if chunk.op = OP.OP_PUSHDATA1 then return 1 + (1 + data.length) + total
      else if chunk.op = OP.OP_PUSHDATA2 then return 1 + (2 + data.length) + total
      else if chunk.op = OP.OP_PUSHDATA4 then return 1 + (4 + data.length) + total
      else return 1 + total

/- `Uint8Array.prototype.set`. -/
def typedArraySet (target data : Bytes) (offset : Nat) : Except JsError Bytes :=
  if offset + data.length ≤ target.length then
    .ok (target.take offset ++ data ++ target.drop (offset + data.length))
  else .error (.rangeError "offset is out of bounds")

/- Assign consecutive elements; past the end is ignored. -/
def typedArrayAssign (target : Bytes) (offset : Nat) : Bytes → Bytes
| [] => target
| byte :: bytes => typedArrayAssign (target.set offset byte) (offset + 1) bytes

/-
  `#writeChunkData`: the length prefix the opcode calls for
  and the data, with the offset after them.
-/
def writeChunkData
  (target : Bytes) (offset op : Nat) (data : Bytes) : Except JsError (Bytes × Nat) :=
  let writePrefixed (width : Nat) := do
    let target ← typedArraySet (typedArrayAssign target offset (leBytes width data.length))
        data (offset + width)
    return (target, offset + width + data.length)
  if op < OP.OP_PUSHDATA1 then writePrefixed 0
  else if op = OP.OP_PUSHDATA1 then writePrefixed 1
  else if op = OP.OP_PUSHDATA2 then writePrefixed 2
  else if op = OP.OP_PUSHDATA4 then writePrefixed 4
  else return (target, offset)

/- The loop of `#serializeChunksToBytes`. -/
def serializeLoop :
  ChunkArray → Bytes → Nat → Except JsError Bytes
| [], bytes, _ => .ok bytes
| none :: _, _, _ => .error (holeError "op")
| some chunk :: chunks, bytes, offset =>
  let bytes := bytes.set offset (UInt8.ofNat chunk.op)
  match chunk.data with
  | none => serializeLoop chunks bytes (offset + 1)
  | some data =>
    if chunk.op = OP.OP_RETURN then typedArraySet bytes data (offset + 1)
    else do
      let written ← writeChunkData bytes (offset + 1) chunk.op data
      serializeLoop chunks written.1 written.2

def serializeChunksToBytes (chunks : ChunkArray) : Except JsError Bytes := do
  let totalLength ← computeSerializedLength chunks
  serializeLoop chunks (List.replicate totalLength 0) 0

-- Parsing

/- The result of `#readPushdataLength`. -/
structure PushdataLength where
  len : Nat
  rest : Bytes
  hasLength : Bool
deriving DecidableEq, Repr

/- `#readPushdataLength` on the bytes after the opcode; bytes past the end count as zero. -/
def readPushdataLength (op : Nat) (bytes : Bytes) : PushdataLength :=
  if 0 < op ∧ op < OP.OP_PUSHDATA1 then { len := op, rest := bytes, hasLength := true }
  else if op = OP.OP_PUSHDATA1 then
    { len := leToNat (bytes.take 1)
      rest := bytes.drop 1
      hasLength := 1 ≤ bytes.length }
  else if op = OP.OP_PUSHDATA2 then
    { len := leToNat (bytes.take 2)
      rest := bytes.drop 2
      hasLength := 2 ≤ bytes.length }
  else
    { len := leToNat (bytes.take 4)
      rest := bytes.drop 4
      hasLength := 4 ≤ bytes.length }

theorem length_readPushdataLength_rest_le (op : Nat) (bytes : Bytes) :
  (readPushdataLength op bytes).rest.length ≤
    bytes.length := by
  unfold readPushdataLength
  split_ifs <;> simp

/- How an opcode moves `inConditionalBlock`. -/
def nextConditionalBlock (inConditionalBlock : Int) (op : Nat) : Int :=
  if op = OP.OP_IF ∨ op = OP.OP_NOTIF ∨ op = OP.OP_VERIF ∨ op = OP.OP_VERNOTIF then
    inConditionalBlock + 1
  else if op = OP.OP_ENDIF then inConditionalBlock - 1
  else inConditionalBlock

def parseChunksLoop (inConditionalBlock : Int) :
  Bytes → List ScriptChunk
| [] => []
| byte :: bytes =>
  let op := byte.toNat
  if op = OP.OP_RETURN ∧ inConditionalBlock = 0 then [{ op := op, data := some bytes }]
  else
    let block := nextConditionalBlock inConditionalBlock op
    if 0 < op ∧ op ≤ OP.OP_PUSHDATA4 then
      let push := readPushdataLength op bytes
      let data := push.rest.take push.len
      let invalidLength := !push.hasLength || data.length != push.len
      { op := op
        data := some data
        invalidLength := some invalidLength } ::
        parseChunksLoop block (push.rest.drop push.len)
    else { op := op } :: parseChunksLoop block bytes
termination_by bytes => bytes.length
decreasing_by
  · have hRest := length_readPushdataLength_rest_le byte.toNat bytes
    simp only [List.length_drop, List.length_cons]
    omega
  · simp

def parseChunks (bytes : Bytes) : List ScriptChunk :=
  parseChunksLoop 0 bytes

-- The Encoding as a Concatenation

def chunkPayload (op : Nat) (data : Bytes) : Bytes :=
  if op < OP.OP_PUSHDATA1 then data
  else if op = OP.OP_PUSHDATA1 then leBytes 1 data.length ++ data
  else if op = OP.OP_PUSHDATA2 then leBytes 2 data.length ++ data
  else if op = OP.OP_PUSHDATA4 then leBytes 4 data.length ++ data
  else []

def chunkListBytes : List ScriptChunk → Bytes
| [] => []
| chunk :: chunks =>
  UInt8.ofNat chunk.op ::
    match chunk.data with
    | none => chunkListBytes chunks
    | some data =>
      if chunk.op = OP.OP_RETURN then data
      else chunkPayload chunk.op data ++ chunkListBytes chunks

theorem computeSerializedLength_map_some (chunks : List ScriptChunk) :
  computeSerializedLength (chunks.map some) = .ok (chunkListBytes chunks).length := by
  induction chunks with
  | nil => rfl
  | cons chunk chunks ih =>
    simp only [map_cons, computeSerializedLength, chunkListBytes, ih]
    cases chunk.data with
    | none =>
      simp only [length_cons]
      exact congrArg Except.ok (Nat.add_comm _ _)
    | some data =>
      unfold chunkPayload
      split_ifs <;>
        simp only [length_cons, length_append, length_leBytes, nil_append] <;>
        exact congrArg Except.ok (by omega)

theorem typedArraySet_unused (written data : Bytes) (count : Nat) :
  typedArraySet (written ++ replicate (data.length + count) 0) data written.length =
    .ok (written ++ data ++ replicate count 0) := by
  unfold typedArraySet
  rw [if_pos (by simp), take_left' rfl, ← drop_drop, drop_left' rfl]
  simp

theorem typedArrayAssign_unused (written bytes : Bytes) (count : Nat) :
  typedArrayAssign (written ++ replicate (bytes.length + count) 0) written.length bytes =
    written ++ bytes ++ replicate count 0 := by
  induction bytes generalizing written with
  | nil => simp [typedArrayAssign]
  | cons byte bytes ih =>
    have hHead :
        (written ++ replicate ((byte :: bytes).length + count) 0).set written.length byte =
          (written ++ [byte]) ++ replicate (bytes.length + count) 0 := by
      rw [set_append_right _ _ (Nat.le_refl _), length_cons, Nat.add_right_comm,
        replicate_succ]
      simp
    have hTail := ih (written ++ [byte])
    rw [length_append] at hTail
    rw [typedArrayAssign, hHead]
    simpa using hTail

theorem writeChunkData_unused (written data : Bytes) (op count : Nat) :
  writeChunkData (written ++ replicate ((chunkPayload op data).length + count) 0)
      written.length op data =
    .ok (written ++ chunkPayload op data ++ replicate count 0,
        written.length + (chunkPayload op data).length) := by
  have hPrefixed
      (width : Nat) :
      (do
        let target ← typedArraySet (typedArrayAssign (written ++
              replicate ((leBytes width data.length ++ data).length + count) 0)
            written.length (leBytes width data.length))
          data (written.length + width)
        return (target, written.length + width + data.length) :
        Except JsError (Bytes × Nat)) =
        .ok (written ++ (leBytes width data.length ++ data) ++ replicate count 0,
          written.length + (leBytes width data.length ++ data).length) := by
    have hSet := typedArraySet_unused (written ++ leBytes width data.length) data count
    simp only [length_append, length_leBytes] at hSet
    rw [length_append, Nat.add_assoc, typedArrayAssign_unused, hSet]
    simp only [length_leBytes, ← append_assoc, ← Nat.add_assoc]
    rfl
  unfold writeChunkData chunkPayload
  split_ifs with hDirect hOne hTwo hFour
  · exact hPrefixed 0
  · exact hPrefixed 1
  · exact hPrefixed 2
  · exact hPrefixed 4
  · simp

/- The write pass fills the buffer with the encoding. -/
theorem serializeLoop_map_some (chunks : List ScriptChunk) (written : Bytes) :
  serializeLoop (chunks.map some) (written ++ replicate (chunkListBytes chunks).length 0)
      written.length =
    .ok (written ++ chunkListBytes chunks) := by
  induction chunks generalizing written with
  | nil => simp [serializeLoop, chunkListBytes]
  | cons chunk chunks ih =>
    have hOp
        (tail : Bytes) :
        (written ++ replicate (UInt8.ofNat chunk.op :: tail).length 0).set
            written.length (UInt8.ofNat chunk.op) =
          (written ++ [UInt8.ofNat chunk.op]) ++ replicate tail.length 0 := by
      have hAssign := typedArrayAssign_unused written [UInt8.ofNat chunk.op] tail.length
      rw [length_cons, Nat.add_comm]
      exact hAssign
    have hLen : written.length + 1 = (written ++ [UInt8.ofNat chunk.op]).length := by simp
    simp only [map_cons, serializeLoop, chunkListBytes, hOp, hLen]
    cases chunk.data with
    | none =>
      have hTail := ih (written ++ [UInt8.ofNat chunk.op])
      rw [hTail]
      simp
    | some data =>
      simp only []
      split_ifs with hReturn
      · have hSet := typedArraySet_unused (written ++ [UInt8.ofNat chunk.op]) data 0
        simpa using hSet
      · rw [length_append, writeChunkData_unused]
        have hTail := ih (written ++ [UInt8.ofNat chunk.op] ++ chunkPayload chunk.op data)
        rw [length_append] at hTail
        simpa using hTail

/- Serialization without holes is the concatenation. -/
theorem serializeChunksToBytes_map_some (chunks : List ScriptChunk) :
  serializeChunksToBytes (chunks.map some) = .ok (chunkListBytes chunks) := by
  have hLoop := serializeLoop_map_some chunks []
  unfold serializeChunksToBytes
  rw [computeSerializedLength_map_some]
  simpa using hLoop

-- The Length of a Serialization

variable {offset : Nat}

theorem length_typedArraySet
  {target data result : Bytes} (hSet : typedArraySet target data offset = .ok result) :
  result.length = target.length := by
  unfold typedArraySet at hSet
  split_ifs at hSet with hFits
  cases hSet
  simp only [length_append, length_take, length_drop]
  omega

@[simp] theorem length_typedArrayAssign (target bytes : Bytes) (offset : Nat) :
  (typedArrayAssign target offset bytes).length =
    target.length := by
  induction bytes generalizing target offset with
  | nil => rfl
  | cons byte bytes ih => simp [typedArrayAssign, ih]

theorem length_writeChunkData {target data : Bytes} {op : Nat} {written : Bytes × Nat}
  (hWrite : writeChunkData target offset op data = .ok written) :
  written.1.length = target.length := by
  unfold writeChunkData at hWrite
  split_ifs at hWrite
  iterate 4
    · rcases bind_eq_ok_iff.mp hWrite with ⟨result, hSet, hRes⟩
      cases hRes
      simpa using length_typedArraySet hSet
  · cases hWrite
    rfl

variable {chunks : ChunkArray}

theorem length_serializeLoop
  {buffer result : Bytes} (hRun : serializeLoop chunks buffer offset = .ok result) :
  result.length = buffer.length := by
  induction chunks generalizing buffer offset with
  | nil =>
    cases hRun
    rfl
  | cons head chunks ih =>
    cases head with
    | none => cases hRun
    | some chunk =>
      simp only [serializeLoop] at hRun
      cases hData : chunk.data with
      | none =>
        rw [hData] at hRun
        simpa using ih hRun
      | some data =>
        rw [hData] at hRun
        simp only [] at hRun
        split_ifs at hRun
        · simpa using length_typedArraySet hRun
        · rcases bind_eq_ok_iff.mp hRun with ⟨written, hWrite, hRest⟩
          rw [ih hRest, length_writeChunkData hWrite, length_set]

theorem length_serializeChunksToBytes
  {bytes : Bytes} (hSer : serializeChunksToBytes chunks = .ok bytes) :
  computeSerializedLength chunks = .ok bytes.length := by
  rcases bind_eq_ok_iff.mp hSer with ⟨totalLength, hLen, hRun⟩
  rw [hLen, length_serializeLoop hRun, length_replicate]

/- Every chunk takes at least its opcode byte. -/
theorem computeSerializedLength_pos {chunk : ScriptChunk} {total : Nat}
  (hLen : computeSerializedLength (some chunk :: chunks) = .ok total) : 0 < total := by
  simp only [computeSerializedLength] at hLen
  cases hData : chunk.data with
  | none =>
    rw [hData] at hLen
    rcases bind_eq_ok_iff.mp hLen with ⟨tail, hTail, hEq⟩
    have hTotal := Except.ok.inj hEq
    omega
  | some data =>
    simp only [hData] at hLen
    by_cases hReturn : chunk.op = OP.OP_RETURN
    · rw [if_pos hReturn] at hLen
      have hTotal := Except.ok.inj hLen
      omega
    · rw [if_neg hReturn] at hLen
      rcases bind_eq_ok_iff.mp hLen with ⟨tail, hTail, hEq⟩
      split_ifs at hEq <;> (have hTotal := Except.ok.inj hEq; omega)

theorem eq_nil_of_serializeChunksToBytes (hSer : serializeChunksToBytes chunks = .ok []) :
  chunks = [] := by
  have hLen := length_serializeChunksToBytes hSer
  cases chunks with
  | nil => rfl
  | cons head chunks =>
    cases head with
    | none => cases hLen
    | some chunk =>
      have hPos := computeSerializedLength_pos hLen
      exact absurd hPos (Nat.lt_irrefl 0)

end TsStack
