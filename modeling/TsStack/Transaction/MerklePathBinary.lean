import TsStack.Primitives.CompactSize
import TsStack.Transaction.MerklePathSort

/-
  The binary form of a Merkle path.
-/

-- Reading

namespace TsStack

open ListParser

namespace MerklePath

/- One leaf of `fromReader`. -/
def readLeaf : ByteReader MerklePathLeaf := do
  let offset ← readVarIntNumStrict
  let flags ← readUInt8
  if flags &&& 1 = 1 then pure { offset := offset, duplicate := some true }
  else do
    let bytes ← ByteReader.read 32
    pure
      { offset := offset
        hash := some (toHex bytes.reverse)
        txid := if flags &&& 2 ≠ 0 then some true else none }

/- One level of `fromReader`. -/
def readLevel : ByteReader (List MerklePathLeaf) := do
  let nLeavesAtThisHeight ← readVarIntNumStrict
  let leaves ← readLeaf.times nLeavesAtThisHeight
  pure (sortLevel leaves)

/- The fields `fromReader` passes to the constructor. -/
def readFields : ByteReader MerklePath := do
  let blockHeight ← readVarIntNumStrict
  let treeHeight ← readUInt8
  let path ← readLevel.times treeHeight
  pure { blockHeight := blockHeight, path := path }

def fromReader (legalOffsetsOnly validateRoots : Bool) :
  ByteReader MerklePath := do
  let fields ← readFields
  match construct fields.blockHeight fields.path legalOffsetsOnly validateRoots with
  | .ok merklePath => pure merklePath
  | .error error => ListParser.fail error

def fromBinary (bump : Bytes) (legalOffsetsOnly validateRoots : Bool) :
  Except JsError MerklePath := do
  let result ← fromReader legalOffsetsOnly validateRoots bump
  return result.1

end MerklePath

-- Writing

def MerklePathLeaf.flags (leaf : MerklePathLeaf) : Nat :=
  (if leaf.duplicate = some true then 1 else 0) ||| (if leaf.txid.isSome then 2 else 0)

namespace MerklePath

/- One leaf of `toWriter`. -/
def writeLeaf (leaf : MerklePathLeaf) : Except JsError Bytes := do
  let start := varIntNum leaf.offset ++ [UInt8.ofNat leaf.flags]
  if leaf.flags &&& 1 = 0 then do
    let hash ← hexToUint8Array (leaf.hash.getD [])
    return start ++ hash.reverse
  else return start

/- One level of `toWriter`. -/
def writeLevel (leaves : List MerklePathLeaf) :
  Except JsError Bytes := do
  let encoded ← leaves.mapM writeLeaf
  return varIntNum leaves.length ++ encoded.flatten

/- `toWriter` and `toBinary`. -/
def toBinary (merklePath : MerklePath) : Except JsError Bytes := do
  let levels ← merklePath.path.mapM writeLevel
  return varIntNum merklePath.blockHeight ++ [UInt8.ofNat merklePath.path.length] ++ levels.flatten

end MerklePath

-- Leaves the Format Carries

/- A leaf in the only form the parser builds. -/
inductive MerklePathLeaf.Normal :
  MerklePathLeaf → Prop where
| duplicate
    {offset : Nat} (hOffset : offset ≤ maxSafeInteger) :
    Normal { offset := offset, duplicate := some true }
| hash
    {offset : Nat} {bytes : Bytes} {txid : Option Bool} (hOffset : offset ≤ maxSafeInteger)
    (hBytes : bytes.length = 32) (hTxid : txid = none ∨ txid = some true) :
    Normal
      { offset := offset
        hash := some (toHex bytes)
        txid := txid }

namespace MerklePath

def leafBytes (leaf : MerklePathLeaf) : Bytes :=
  varIntNum leaf.offset ++ [UInt8.ofNat leaf.flags] ++
    match hexToUint8Array (leaf.hash.getD []) with
    | .ok hash => hash.reverse
    | .error _ => []

theorem leafBytes_duplicate (offset : Nat) :
  leafBytes { offset := offset, duplicate := some true } =
    varIntNum offset ++ [UInt8.ofNat 1] := by
  have hDecode : hexToUint8Array [] = .ok [] := rfl
  simp [leafBytes, MerklePathLeaf.flags, hDecode]

theorem leafBytes_hash (offset : Nat) (bytes : Bytes) (txid : Option Bool) : leafBytes
      { offset := offset
        hash := some (toHex bytes)
        txid := txid } =
    varIntNum offset ++ ([UInt8.ofNat (if txid.isSome then 2 else 0)] ++ bytes.reverse) := by
  simp [leafBytes, MerklePathLeaf.flags]

theorem writeLeaf_of_normal {leaf : MerklePathLeaf} (hLeaf : leaf.Normal) :
  writeLeaf leaf = .ok (leafBytes leaf) := by
  cases hLeaf with
  | duplicate hOffset =>
    rw [leafBytes_duplicate]
    simp [writeLeaf, MerklePathLeaf.flags]
  | hash hOffset hBytes hTxid =>
    rcases hTxid with rfl | rfl
    · simp [writeLeaf, leafBytes, MerklePathLeaf.flags]
    · simp [writeLeaf, leafBytes, MerklePathLeaf.flags]

theorem reads_readLeaf {leaf : MerklePathLeaf} (hLeaf : leaf.Normal) :
  readLeaf.Reads leaf (leafBytes leaf) := by
  have hFlags
      (flags : Nat)
      (hByte : flags < 256) :
      readUInt8.Reads flags [UInt8.ofNat flags] :=
    reads_readUInt 1 hByte
  cases hLeaf with
  | duplicate hOffset =>
    rw [leafBytes_duplicate]
    refine (reads_readVarIntNumStrict hOffset).bind ?_
    refine (hFlags 1 (by omega)).bind_nil ?_
    exact reads_pure _
  | @hash offset bytes txid hOffset hBytes hTxid =>
    have hRead := reads_read bytes.reverse
    rw [List.length_reverse, hBytes] at hRead
    rw [leafBytes_hash]
    refine (reads_readVarIntNumStrict hOffset).bind ?_
    rcases hTxid with rfl | rfl
    · refine (hFlags 0 (by omega)).bind ?_
      refine hRead.bind_nil ?_
      rw [List.reverse_reverse]
      exact reads_pure _
    · refine (hFlags 2 (by omega)).bind ?_
      refine hRead.bind_nil ?_
      rw [List.reverse_reverse]
      exact reads_pure _

theorem yields_readLeaf : readLeaf.Yields MerklePathLeaf.Normal := by
  refine yields_readVarIntNumStrict.bind fun offset hOffset => ?_
  refine (yields_readUInt 1).bind fun flags _ => ?_
  refine .ite (fun _ => ?_) fun _ => ?_
  · exact yields_pure (.duplicate hOffset)
  · refine (yields_read 32).bind fun bytes hBytes => ?_
    refine yields_pure (.hash hOffset (by simpa using hBytes) ?_)
    split_ifs
    · exact .inr rfl
    · exact .inl rfl

-- Levels and Fields

def levelBytes (leaves : List MerklePathLeaf) : Bytes :=
  varIntNum leaves.length ++ leaves.flatMap leafBytes

/- A level the format can carry. -/
structure NormalLevel (leaves : List MerklePathLeaf) : Prop where
  normal : ∀ leaf ∈ leaves, leaf.Normal
  length : leaves.length ≤ maxSafeInteger

variable {leaves : List MerklePathLeaf}

theorem writeLevel_of_normal (hLeaves : NormalLevel leaves) :
  writeLevel leaves = .ok (levelBytes leaves) := by
  unfold writeLevel
  rw [mapM_eq_ok leaves fun leaf hLeaf => writeLeaf_of_normal (hLeaves.normal leaf hLeaf)]
  rfl

theorem reads_readLevel (hLeaves : NormalLevel leaves) :
  readLevel.Reads (sortLevel leaves) (levelBytes leaves) := by
  refine (reads_readVarIntNumStrict hLeaves.length).bind ?_
  have hTimes := ListParser.Reads.times (f := id) leaves fun leaf hLeaf =>
    reads_readLeaf (hLeaves.normal leaf hLeaf)
  rw [List.map_id] at hTimes
  exact hTimes.bind_nil (reads_pure _)

theorem NormalLevel.sortLevel (hLeaves : NormalLevel leaves) : NormalLevel (sortLevel leaves) where
  normal := by
    intro leaf hLeaf
    exact hLeaves.normal leaf ((sortLevel_perm leaves).mem_iff.mp hLeaf)
  length := by
    rw [(sortLevel_perm leaves).length_eq]
    exact hLeaves.length

theorem yields_readLevel :
  readLevel.Yields (fun leaves => NormalLevel leaves ∧ sortLevel leaves = leaves) := by
  refine yields_readVarIntNumStrict.bind fun count hCount => ?_
  refine (yields_readLeaf.times count).bind fun leaves hLeaves => ?_
  have hLevel : NormalLevel leaves := ⟨hLeaves.2, by omega⟩
  exact yields_pure ⟨hLevel.sortLevel, sortLevel_sortLevel leaves⟩

/- A path the format can carry. -/
structure NormalPath (merklePath : MerklePath) : Prop where
  blockHeight : merklePath.blockHeight ≤ maxSafeInteger
  treeHeight : merklePath.path.length < 256
  levels : ∀ leaves ∈ merklePath.path, NormalLevel leaves

def pathBytes (merklePath : MerklePath) : Bytes :=
  varIntNum merklePath.blockHeight ++
    [UInt8.ofNat merklePath.path.length] ++ merklePath.path.flatMap levelBytes

variable {merklePath : MerklePath}

theorem toBinary_of_normal (hPath : merklePath.NormalPath) :
  merklePath.toBinary = .ok (pathBytes merklePath) := by
  unfold toBinary
  rw [mapM_eq_ok merklePath.path fun leaves hLeaves =>
    writeLevel_of_normal (hPath.levels leaves hLeaves)]
  rfl

theorem reads_readFields (hPath : merklePath.NormalPath) :
  readFields.Reads merklePath.sorted (pathBytes merklePath) := by
  have hHeight : readUInt8.Reads merklePath.path.length [UInt8.ofNat merklePath.path.length] :=
    reads_readUInt 1 hPath.treeHeight
  have hTimes := ListParser.Reads.times merklePath.path fun leaves hLeaves =>
    reads_readLevel (hPath.levels leaves hLeaves)
  unfold pathBytes
  rw [List.append_assoc]
  refine (reads_readVarIntNumStrict hPath.blockHeight).bind ?_
  refine hHeight.bind ?_
  exact hTimes.bind_nil (reads_pure _)

theorem yields_readFields : readFields.Yields (fun merklePath =>
    merklePath.NormalPath ∧ merklePath.sorted = merklePath) := by
  refine yields_readVarIntNumStrict.bind fun blockHeight hHeight => ?_
  refine (yields_readUInt 1).bind fun count hCount => ?_
  refine (yields_readLevel.times count).bind fun path hPath => ?_
  refine yields_pure ⟨⟨hHeight, ?_, ?_⟩, ?_⟩
  · simpa [hPath.1] using hCount
  · exact fun leaves hLeaves => (hPath.2 leaves hLeaves).1
  · have hSorted : path.map sortLevel = path :=
      (List.map_congr_left fun leaves hLeaves =>
        (hPath.2 leaves hLeaves).2).trans (List.map_id path)
    simp [sorted, hSorted]

-- Round Trip

theorem fromReader_eq_ok_iff
  (legalOffsetsOnly validateRoots : Bool) (input rest : Bytes) (merklePath : MerklePath) :
  fromReader legalOffsetsOnly validateRoots input = .ok (merklePath, rest) ↔
    ∃ fields, readFields input = .ok (fields, rest) ∧
      construct fields.blockHeight fields.path legalOffsetsOnly validateRoots =
        .ok merklePath := by
  unfold fromReader
  rw [ListParser.bind_eq_ok_iff]
  constructor
  · rintro ⟨fields, tokens, hFields, hMake⟩
    cases hConstruct : construct fields.blockHeight fields.path legalOffsetsOnly validateRoots with
    | error error =>
      rw [hConstruct] at hMake
      cases hMake
    | ok made =>
      rw [hConstruct] at hMake
      cases hMake
      exact ⟨fields, hFields, hConstruct⟩
  · rintro ⟨fields, hFields, hConstruct⟩
    refine ⟨fields, rest, hFields, ?_⟩
    rw [hConstruct]
    rfl

variable {legalOffsetsOnly validateRoots : Bool}

theorem reads_fromReader {blockHeight : Nat} {path : List (List MerklePathLeaf)}
  (hConstruct : construct blockHeight path legalOffsetsOnly validateRoots = .ok merklePath)
  (hPath : merklePath.NormalPath) (hSortable : merklePath.Sortable) :
  (fromReader legalOffsetsOnly validateRoots).Reads merklePath.sorted (pathBytes merklePath) := by
  intro rest
  rw [fromReader_eq_ok_iff]
  refine ⟨merklePath.sorted, reads_readFields hPath rest, ?_⟩
  have hSorted := construct_sorted hConstruct hSortable
  rcases structure_of_construct hConstruct with ⟨rfl, _, _⟩
  exact hSorted

/- What a parse leaves to be known about its path. -/
theorem fromReader_spec {input rest : Bytes}
  (hRead : fromReader legalOffsetsOnly validateRoots input = .ok (merklePath, rest)) :
  construct merklePath.blockHeight merklePath.path legalOffsetsOnly validateRoots =
      .ok merklePath ∧
    merklePath.NormalPath ∧ merklePath.sorted = merklePath := by
  rcases (fromReader_eq_ok_iff _ _ _ _ _).mp hRead with ⟨fields, hFields, hConstruct⟩
  rcases structure_of_construct hConstruct with ⟨rfl, _, _⟩
  exact ⟨hConstruct, yields_readFields input fields rest hFields⟩

theorem sortable_of_sorted (hSorted : merklePath.sorted = merklePath) : merklePath.Sortable := by
  left
  rw [← level_sorted, hSorted]

theorem length_path_of_construct {blockHeight : Nat} {path : List (List MerklePathLeaf)}
  (hConstruct : construct blockHeight path legalOffsetsOnly validateRoots = .ok merklePath) :
  path.length ≤ 54 := by
  rcases bind_eq_ok_iff.mp hConstruct with ⟨_, hStructure, _⟩
  unfold checkStructure at hStructure
  split_ifs at hStructure with hLen
  omega

/-
  A parsed path is read back from its bytes as it was, with no byte left; and an accepted path
  whose leaves have the form the format carries is read back with every level sorted by offset.
-/
theorem binary_round_trip (legalOffsetsOnly validateRoots : Bool) :
  (∀ bytes merklePath rest, fromReader legalOffsetsOnly validateRoots bytes =
        .ok (merklePath, rest) →
      ∃ output, merklePath.toBinary = .ok output ∧
        fromReader legalOffsetsOnly validateRoots output = .ok (merklePath, [])) ∧
    (∀ blockHeight path merklePath, construct blockHeight path legalOffsetsOnly
          validateRoots = .ok merklePath →
      blockHeight ≤ maxSafeInteger → (∀ leaves ∈ path, NormalLevel leaves) →
      merklePath.Sortable → ∃ output, merklePath.toBinary = .ok output ∧
          fromReader legalOffsetsOnly validateRoots output = .ok (merklePath.sorted, [])) := by
  constructor
  · intro bytes merklePath rest hRead
    rcases fromReader_spec hRead with ⟨hConstruct, hPath, hSorted⟩
    have hReads := reads_fromReader hConstruct hPath (sortable_of_sorted hSorted) []
    rw [List.append_nil, hSorted] at hReads
    exact ⟨_, toBinary_of_normal hPath, hReads⟩
  · intro blockHeight path merklePath hConstruct hHeight hLevels hSortable
    have hLength := length_path_of_construct hConstruct
    have hPath : merklePath.NormalPath := by
      rcases structure_of_construct hConstruct with ⟨rfl, _, _⟩
      exact ⟨hHeight, by simp only; omega, hLevels⟩
    have hReads := reads_fromReader hConstruct hPath hSortable []
    rw [List.append_nil] at hReads
    exact ⟨_, toBinary_of_normal hPath, hReads⟩

/- A lone coinbase, and two leaves in descending order. -/
theorem binary_round_trip_examples :
  (∃ output, (mk 7 (coinbaseLevels (toHex (List.replicate 32 0)))).toBinary = .ok output ∧
      fromReader true false output = .ok (mk 7 (coinbaseLevels
          (toHex (List.replicate 32 0))), [])) ∧
    ∃ output, (mk 7
        [[{ offset := 1, duplicate := some true },
          { offset := 0
            hash := some (toHex (List.replicate 32 0)) }]]).toBinary =
          .ok output ∧
        fromReader true false output = .ok (mk 7
            [[{ offset := 0
                hash := some (toHex (List.replicate 32 0)) },
              { offset := 1
                duplicate := some true }]], []) := by
  have hBoth := binary_round_trip true false
  refine ⟨?_, ?_⟩
  · exact hBoth.1 ([7, 1, 1, 0, 2] ++ List.replicate 32 0 ++ [9]) _ [9] (by decide)
  · refine hBoth.2 7
      [[{ offset := 1, duplicate := some true },
        { offset := 0
          hash := some (toHex (List.replicate 32 0)) }]]
      _ (by decide) (by decide) ?_ ?_
    · intro leaves hLeaves
      rw [List.mem_singleton] at hLeaves
      subst hLeaves
      refine ⟨?_, by decide⟩
      intro leaf hLeaf
      rcases List.mem_pair.mp hLeaf with rfl | rfl
      · exact .duplicate (by decide)
      · exact .hash (by decide) (by simp) (Or.inl rfl)
    · refine Or.inr ?_
      intro leaf hLeaf other hOther hSome hHash
      rcases List.mem_pair.mp hLeaf with rfl | rfl
      · cases hSome
      · rcases List.mem_pair.mp hOther with rfl | rfl
        · cases hHash
        · rfl

def unflaggedLevels : List (List MerklePathLeaf) :=
  [[{ offset := 0
      hash := some (toHex (List.replicate 32 0))
      txid := some false }]]

theorem not_binary_round_trip_flag :
  ∃ merklePath output reread, construct 7 unflaggedLevels true true = .ok merklePath ∧
      merklePath.toBinary = .ok output ∧ fromReader true true output = .ok (reread, []) ∧
          reread ≠ merklePath.sorted := by
  refine ⟨mk 7 unflaggedLevels, _, mk 7 (coinbaseLevels (toHex (List.replicate 32 0))),
      ?_, rfl, ?_, ?_⟩
  · decide
  · decide
  · decide

end MerklePath

end TsStack
