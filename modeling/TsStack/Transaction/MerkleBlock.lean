import Mathlib.Data.List.Perm.Basic
import TsStack.Lib.MerkleTree
import TsStack.Transaction.MerkleAgreement

/-
  A path of one level that holds a whole block computes the
  Merkle root of the block for each of its transactions.
-/

-- Transaction Ids

open List

namespace TsStack

open MerkleTree

/- Hexadecimal text of thirty-two bytes. -/
def IsTxid (txid : JsString) : Prop :=
  ∃ bytes, hexPairs txid = some bytes ∧ bytes.length = 32

/- The bytes of a transaction id as they are hashed. -/
def txidBytes (txid : JsString) : Bytes :=
  ((hexPairs txid).getD []).reverse

def merkleNode (left right : JsString) : JsString :=
  toHex (hash256 (txidBytes left ++ txidBytes right)).reverse

/- Text of whole bytes decodes without padding. -/
theorem hexToUint8Array_of_hexPairs
  {msg : JsString} {bytes : Bytes} (hPairs : hexPairs msg = some bytes) :
  hexToUint8Array msg = .ok bytes := by
  have hValues := (hexPairs_eq_some_iff _ _).mp hPairs
  have hLen := congrArg List.length hValues
  have hCount : (bytes.flatMap hexByteValues).length = 2 * bytes.length := by
    simp [hexByteValues, length_flatMap]
    omega
  rw [length_map, hCount] at hLen
  rw [hexToUint8Array_eq_ok_iff, normalizeHexLength, if_pos (by omega)]
  exact hValues

theorem isTxid_toHex {bytes : Bytes} (hLen : bytes.length = 32) : IsTxid (toHex bytes) :=
  ⟨bytes, (hexPairs_eq_some_iff _ _).mpr (map_hexCharToValue_toHex _), hLen⟩

theorem isTxid_merkleNode (left right : JsString) : IsTxid (merkleNode left right) :=
  isTxid_toHex (by simp)

theorem IsTxid.ne_nil {txid : JsString} (hTxid : IsTxid txid) : txid ≠ [] := by
  rintro rfl
  rcases hTxid with ⟨bytes, hPairs, hLen⟩
  cases hPairs
  cases hLen

/- `hashPair` takes the right side first. -/
theorem hashPair_eq {left right : JsString} (hLeft : IsTxid left) (hRight : IsTxid right) :
  hashPair (some right) (some left) = .ok (merkleNode left right) := by
  rcases hLeft with ⟨leftBytes, hLeft, _⟩
  rcases hRight with ⟨rightBytes, hRight, _⟩
  have hBoth : hexPairs (right ++ left) = some (rightBytes ++ leftBytes) := by
    rw [hexPairs_eq_some_iff] at hLeft hRight ⊢
    rw [map_append, flatMap_append, hLeft, hRight]
  simp [hashPair, hexToUint8Array_of_hexPairs hBoth, merkleNode, txidBytes, hLeft, hRight]

-- Blocks

/- The transaction ids of a block; an array can hold them. -/
structure IsBlock (txids : List JsString) : Prop where
  nonempty : txids ≠ []
  distinct : txids.Nodup
  txid : ∀ txid ∈ txids, IsTxid txid
  length : txids.length ≤ maxSafeInteger

def treeNode (txids : List JsString) (height offset : Nat) : Option JsString :=
  (MerkleTree.levelAt merkleNode txids height)[offset]?

variable {txids : List JsString}

variable {height offset : Nat}

theorem IsBlock.isTxid_of_treeNode {hash : JsString} (hBlock : IsBlock txids)
  (hNode : treeNode txids height offset = some hash) : IsTxid hash :=
  forall_mem_levelAt hBlock.txid isTxid_merkleNode height hash
    (mem_of_getElem? hNode)

/- There are nodes up to the one over the last id. -/
theorem IsBlock.treeNode_isSome_iff (hBlock : IsBlock txids) (height offset : Nat) :
  (treeNode txids height offset).isSome ↔ offset ≤ offsetAtHeight (txids.length - 1) height := by
  rw [treeNode, isSome_getElem?, length_levelAt hBlock.nonempty, Nat.lt_succ_iff]
  rfl

theorem IsBlock.treeNode_eq_none_iff (hBlock : IsBlock txids) (height offset : Nat) :
  treeNode txids height offset = none ↔ offsetAtHeight (txids.length - 1) height < offset := by
  rw [← Option.not_isSome_iff_eq_none, hBlock.treeNode_isSome_iff, Nat.not_le]

theorem treeNode_succ {own : JsString} (hOwn : treeNode txids height offset = some own) :
  treeNode txids (height + 1) (offset / 2) = some (if offset % 2 = 0 then
      merkleNode own ((treeNode txids height (offset + 1)).getD own)
    else merkleNode ((treeNode txids height (offset - 1)).getD own) own) :=
  climb hOwn

theorem IsBlock.root_eq (hBlock : IsBlock txids) (hTwo : 2 ≤ txids.length) :
  MerkleTree.root merkleNode txids = treeNode txids (offsetTreeHeight (txids.length - 1)) 0 := by
  have hNe : txids.length - 1 ≠ 0 := by omega
  have hLen (height : Nat) :=
    @MerkleTree.length_levelAt _ merkleNode txids hBlock.nonempty height
  have hTop : (levelAt merkleNode txids (offsetTreeHeight (txids.length - 1))).length =
          1 := by
    rw [hLen, offsetTreeHeight, if_neg hNe, Nat.div_eq_of_lt Nat.lt_log2_self]
  rcases length_eq_one_iff.mp hTop with ⟨top, hEq⟩
  rw [treeNode, hEq]
  refine root_of_singleton ?_ hEq
  intro lower hLower
  rw [offsetTreeHeight, if_neg hNe] at hLower
  have hPow : 2 ^ lower ≤ txids.length - 1 := (Nat.le_log2 hNe).mp (by omega)
  have hDiv := Nat.div_pos hPow (Nat.two_pow_pos lower)
  rw [hLen]
  omega

-- Leaves That Read Nodes

def Reads :
  Option MerklePathLeaf → Option JsString → Prop
| none, node => node = none
| some leaf, none => leaf.duplicate = some true ∧ leaf.hash = none
| some leaf, some hash => leaf.hash = some hash ∧ leaf.duplicate ≠ some true

theorem Reads.exists_leaf
  {leaf : Option MerklePathLeaf} {hash : JsString} (hReads : Reads leaf (some hash)) :
  ∃ found, leaf = some found ∧ found.hash = some hash ∧ found.duplicate ≠ some true := by
  cases leaf with
  | none => cases hReads
  | some found => exact ⟨found, rfl, hReads⟩

theorem reads_computed (offset : Nat) (hash : JsString) :
  Reads (some { offset := offset, hash := some hash }) (some hash) :=
  ⟨rfl, by simp⟩

theorem nextCachedHash_of_reads
  {height offset index : Nat} {working : JsString} {leaf : Option MerklePathLeaf}
  {isLastOddNode : Bool} (hBlock : IsBlock txids)
  (hOwn : treeNode txids height offset = some working)
  (hReads : Reads leaf (treeNode txids height (siblingOf offset)))
  (hLast : leaf = none → isLastOddNode = true) :
  ∃ next, treeNode txids (height + 1) (offset / 2) = some next ∧
      nextCachedHash working leaf (siblingOf offset) index height isLastOddNode = .ok next := by
  have hWorking := hBlock.isTxid_of_treeNode hOwn
  have hDouble := hashPair_eq hWorking hWorking
  have hAbove := treeNode_succ hOwn
  have hBound := (hBlock.treeNode_isSome_iff height offset).mp (by rw [hOwn]; rfl)
  cases hSib : treeNode txids height (siblingOf offset) with
  | none =>
    have hEven : offset % 2 = 0 := by
      rw [hBlock.treeNode_eq_none_iff] at hSib
      by_contra hOdd
      rw [siblingOf, if_neg hOdd] at hSib
      omega
    rw [siblingOf, if_pos hEven] at hSib
    rw [if_pos hEven, hSib] at hAbove
    refine ⟨_, hAbove, ?_⟩
    cases leaf with
    | none =>
      rw [hLast rfl]
      exact hDouble
    | some leaf =>
      rw [siblingOf, if_pos hEven, hSib] at hReads
      simp only [nextCachedHash, hReads.1, if_true]
      exact hDouble
  | some sibling =>
    have hOther := hBlock.isTxid_of_treeNode hSib
    rw [hSib] at hReads
    rcases hReads.exists_leaf with ⟨found, rfl, hHash, hPlain⟩
    refine ⟨_, hAbove, ?_⟩
    by_cases hEven : offset % 2 = 0
    · rw [siblingOf, if_pos hEven] at hSib ⊢
      have hOdd : (offset + 1) % 2 = 1 := by omega
      simp only [nextCachedHash, if_neg hPlain, if_pos hOdd, if_pos hEven, hHash, hSib]
      exact hashPair_eq hWorking hOther
    · rw [siblingOf, if_neg hEven] at hSib ⊢
      have hEven' : ¬(offset - 1) % 2 = 1 := by omega
      simp only [nextCachedHash, if_neg hPlain, if_neg hEven', if_neg hEven, hHash, hSib]
      exact hashPair_eq hOther hWorking

namespace MerklePath

variable {merklePath : MerklePath}

def computedLeaf (merklePath : MerklePath) (h offset : Nat) :
  Except JsError (Option MerklePathLeaf) :=
  if ¬isSafeInteger (offset * 2) then .ok none
  else do
    let leaf0 ← merklePath.findOrComputeLeaf h (offset * 2)
    match leaf0.bind (·.presentHash) with
    | none => return none
    | some hash0 =>
      let leaf1 ← merklePath.findOrComputeLeaf h (offset * 2 + 1)
      merklePath.parentLeaf offset h (offset * 2) hash0 leaf1

theorem findOrComputeLeaf_succ (merklePath : MerklePath) (h offset : Nat) :
  merklePath.findOrComputeLeaf (h + 1) offset = (assertOffset offset >>= fun _ =>
      ((merklePath.level (h + 1)).find? (fun leaf => leaf.offset = offset)).elim
          (merklePath.computedLeaf h offset)
          (fun leaf => .ok (some leaf))) := by
  rw [findOrComputeLeaf]
  refine bind_congr fun _ => ?_
  cases (merklePath.level (h + 1)).find? (fun leaf => leaf.offset = offset) with
  | none => rfl
  | some leaf => rfl

theorem computedLeaf_reads (hBlock : IsBlock txids) (hFound :
    offset * 2 ≤ maxSafeInteger →
    ∃ left right, merklePath.findOrComputeLeaf height (offset * 2) = .ok left ∧
        Reads left (treeNode txids height (offset * 2)) ∧
      merklePath.findOrComputeLeaf height (offset * 2 + 1) = .ok right ∧
        Reads right (treeNode txids height (offset * 2 + 1)) ∧
      (right = none → (treeNode txids height (offset * 2)).isSome →
        merklePath.path.length = 1 ∧ offset * 2 = offsetAtHeight merklePath.maxOffset height)) :
  ∃ leaf, merklePath.computedLeaf height offset = .ok leaf ∧
      Reads leaf (treeNode txids (height + 1) offset) := by
  have hAbove :
      treeNode txids (height + 1) offset = (treeNode txids height (2 * offset)).map fun left =>
        merkleNode left ((treeNode txids height (2 * offset + 1)).getD left) :=
    getElem?_above _ _
  rw [Nat.mul_comm 2 offset] at hAbove
  unfold computedLeaf
  by_cases hDouble : offset * 2 ≤ maxSafeInteger
  · rcases hFound hDouble with ⟨leaf₀, leaf₁, hLeaf₀, hReads₀, hLeaf₁, hReads₁, hLast⟩
    rw [if_neg (by simpa using hDouble), hLeaf₀, hLeaf₁]
    simp only [ok_bind]
    cases hLeft : treeNode txids height (offset * 2) with
    | none =>
      rw [hLeft] at hAbove hReads₀
      have hNone : leaf₀.bind (·.presentHash) = none := by
        cases leaf₀ with
        | none => rfl
        | some leaf => simp [MerklePathLeaf.presentHash, hReads₀.2]
      rw [hNone, hAbove]
      exact ⟨none, rfl, rfl⟩
    | some left =>
      rw [hLeft] at hAbove hReads₀ hLast
      have hTxid := hBlock.isTxid_of_treeNode hLeft
      rcases hReads₀.exists_leaf with ⟨found, rfl, hHash, _⟩
      have hPresent : (some found).bind (·.presentHash) = some left := by
        simp [MerklePathLeaf.presentHash, hHash, hTxid.ne_nil]
      rw [hPresent, hAbove]
      simp only [Option.map_some]
      have hDoubled := hashPair_eq hTxid hTxid
      cases hRight : treeNode txids height (offset * 2 + 1) with
      | none =>
        rw [hRight] at hReads₁
        refine ⟨_, ?_, reads_computed offset _⟩
        cases leaf₁ with
        | none =>
          rcases hLast rfl rfl with ⟨hSingle, hLast⟩
          simp [parentLeaf, hSingle, ← hLast, hDoubled]
        | some leaf₁ => simp [parentLeaf, hReads₁.1, hReads₁.2, hDoubled]
      | some right =>
        rw [hRight] at hReads₁
        rcases hReads₁.exists_leaf with ⟨found₁, rfl, hHash₁, hPlain₁⟩
        refine ⟨_, ?_, reads_computed offset _⟩
        simp [parentLeaf, hHash₁, hPlain₁, hashPair_eq hTxid (hBlock.isTxid_of_treeNode hRight)]
  · rw [if_pos (by simpa using hDouble)]
    have hNone : treeNode txids height (offset * 2) = none := by
      rw [hBlock.treeNode_eq_none_iff]
      have hLe : offsetAtHeight (txids.length - 1) height ≤ txids.length - 1 := Nat.div_le_self _ _
      have hLen := hBlock.length
      omega
    rw [hAbove, hNone]
    exact ⟨none, rfl, rfl⟩

/-
  Where the siblings on the way are found as the tree has
  them, the working hashes are the nodes on the way.
-/
theorem working_eq_of_reads {start : Start} {top : Nat} (hBlock : IsBlock txids)
  (hStart : txids[start.index]? = some start.txid)
  (hSiblings : ∀ height < top, (treeNode txids height (start.node height)).isSome →
      ∃ leaf, merklePath.findOrComputeLeaf height (siblingOf (start.node height)) = .ok leaf ∧
        Reads leaf (treeNode txids height (siblingOf (start.node height))) ∧
        (leaf = none → merklePath.path.length = 1 ∧ start.node height =
              offsetAtHeight merklePath.maxOffset height)) :
  ∀ height ≤ top, ∃ working, treeNode txids height (start.node height) = some working ∧
      start.working merklePath height = .ok working := by
  intro height hTop
  induction height with
  | zero =>
    refine ⟨start.txid, ?_, rfl⟩
    rw [Start.node, offsetAtHeight, Nat.pow_zero, Nat.div_one]
    exact hStart
  | succ height ih =>
    rcases ih (by omega) with ⟨working, hOwn, hWorking⟩
    rcases hSiblings height hTop (by rw [hOwn]; rfl) with ⟨leaf, hLeaf, hReads, hLast⟩
    rcases @nextCachedHash_of_reads _ height (start.node height) start.index working leaf
        (merklePath.path.length = 1 && start.node height =
          offsetAtHeight merklePath.maxOffset height)
        hBlock hOwn hReads (by simpa using hLast) with
      ⟨next, hAbove, hNext⟩
    refine ⟨next, ?_, ?_⟩
    · rw [Start.node, offsetAtHeight, Nat.pow_succ, ← Nat.div_div_eq_div_mul]
      exact hAbove
    · rw [working_succ, hWorking, ok_bind, hLeaf, ok_bind]
      exact hNext

-- Whole Blocks in One Level

structure HoldsBlock (merklePath : MerklePath) (txids : List JsString) : Prop where
  single : merklePath.path.length = 1
  offsets : ((merklePath.level 0).map (·.offset)).Perm (List.range txids.length)
  leaf : ∀ leaf ∈ merklePath.level 0, leaf.hash = txids[leaf.offset]? ∧ leaf.duplicate ≠ some true

theorem HoldsBlock.nodup (hHold : merklePath.HoldsBlock txids) :
  ((merklePath.level 0).map (·.offset)).Nodup :=
  hHold.offsets.nodup_iff.mpr nodup_range

theorem HoldsBlock.offset_lt {leaf : MerklePathLeaf} (hHold : merklePath.HoldsBlock txids)
  (hLeaf : leaf ∈ merklePath.level 0) : leaf.offset < txids.length :=
  mem_range.mp (hHold.offsets.mem_iff.mp (List.mem_map_of_mem hLeaf))

theorem HoldsBlock.level_succ (hHold : merklePath.HoldsBlock txids) (height : Nat) :
  merklePath.level (height + 1) = [] := by
  rw [level, getD_eq_getElem?_getD, getElem?_eq_none (by rw [hHold.single]; omega)]
  rfl

theorem HoldsBlock.maxOffset_eq (hHold : merklePath.HoldsBlock txids) :
  merklePath.maxOffset = txids.length - 1 := by
  have hRange
      (count : Nat) :
      (range count).foldl Nat.max 0 = count - 1 := by
    induction count with
    | zero => rfl
    | succ count ih =>
      rw [range_succ, foldl_append, ih]
      simp only [foldl_cons, foldl_nil]
      exact Nat.max_eq_right (by omega)
  have hFold : merklePath.maxOffset = ((merklePath.level 0).map (·.offset)).foldl Nat.max 0 := by
    rw [foldl_map]
    rfl
  have _ : RightCommutative Nat.max := ⟨Nat.max_right_comm⟩
  rw [hFold, hHold.offsets.foldl_eq, hRange]

theorem HoldsBlock.treeHeight_eq (hHold : merklePath.HoldsBlock txids) (hTwo : 2 ≤ txids.length) :
  merklePath.treeHeight = offsetTreeHeight (txids.length - 1) := by
  rw [treeHeight, hHold.single, hHold.maxOffset_eq, Nat.max_eq_right]
  rw [offsetTreeHeight, if_neg (by omega)]
  omega

theorem HoldsBlock.find?_reads (hHold : merklePath.HoldsBlock txids) (offset : Nat) :
  Reads ((merklePath.level 0).find? (fun leaf => leaf.offset = offset)) txids[offset]? := by
  cases hFind : (merklePath.level 0).find? (fun leaf => leaf.offset = offset) with
  | some leaf =>
    rcases (find?_offset_eq_some_iff hHold.nodup).mp hFind with ⟨hLeaf, rfl⟩
    rcases hHold.leaf leaf hLeaf with ⟨hHash, hPlain⟩
    rw [getElem?_eq_getElem (hHold.offset_lt hLeaf)] at hHash ⊢
    exact ⟨hHash, hPlain⟩
  | none =>
    refine getElem?_eq_none ?_
    by_contra hLt
    have hMem := hHold.offsets.mem_iff.mpr (mem_range.mpr (Nat.not_le.mp hLt))
    rcases List.mem_map.mp hMem with ⟨leaf, hLeaf, hOff⟩
    exact absurd hOff (by simpa using find?_eq_none.mp hFind leaf hLeaf)

theorem HoldsBlock.findOrComputeLeaf_reads
  (hBlock : IsBlock txids) (hHold : merklePath.HoldsBlock txids) (hSafe : offset ≤ maxSafeInteger) :
  ∃ leaf, merklePath.findOrComputeLeaf height offset = .ok leaf ∧
      Reads leaf (treeNode txids height offset) := by
  have hAssert := (assertOffset_eq_ok_iff offset).mpr hSafe
  induction height generalizing offset with
  | zero =>
    refine ⟨_, ?_, hHold.find?_reads offset⟩
    rw [findOrComputeLeaf, hAssert, ok_bind]
    cases (merklePath.level 0).find? (fun leaf => leaf.offset = offset) with
    | none => rfl
    | some leaf => rfl
  | succ height ih =>
    rw [findOrComputeLeaf_succ, hAssert, ok_bind, hHold.level_succ]
    refine computedLeaf_reads hBlock fun hDouble => ?_
    rcases ih hDouble ((assertOffset_eq_ok_iff _).mpr hDouble) with ⟨left, hLeft, hReads⟩
    rcases ih (succ_double_le hDouble) ((assertOffset_eq_ok_iff _).mpr
          (succ_double_le hDouble)) with
      ⟨right, hRight, hReads'⟩
    refine ⟨left, right, hLeft, hReads, hRight, hReads', ?_⟩
    rintro rfl hSome
    have hNone := (hBlock.treeNode_eq_none_iff _ _).mp hReads'
    have hLe := (hBlock.treeNode_isSome_iff _ _).mp hSome
    rw [hHold.maxOffset_eq]
    exact ⟨hHold.single, by omega⟩

theorem HoldsBlock.working_eq
  (hBlock : IsBlock txids) (hHold : merklePath.HoldsBlock txids) {start : Start}
  (hStart : txids[start.index]? = some start.txid) (height : Nat) :
  ∃ working, treeNode txids height (start.node height) = some working ∧
      start.working merklePath height = .ok working := by
  refine working_eq_of_reads hBlock hStart ?_ height (Nat.le_refl height)
  intro lower _ hOwn
  have hBound := (hBlock.treeNode_isSome_iff lower _).mp hOwn
  have hLe : offsetAtHeight (txids.length - 1) lower ≤ txids.length - 1 := Nat.div_le_self _ _
  have hLen := hBlock.length
  rcases hHold.findOrComputeLeaf_reads hBlock (@siblingOf_le (start.node lower) (by omega)) with
    ⟨leaf, hLeaf, hReads⟩
  refine ⟨leaf, hLeaf, hReads, ?_⟩
  rintro rfl
  have hNone := (hBlock.treeNode_eq_none_iff _ _).mp hReads
  refine ⟨hHold.single, ?_⟩
  rw [hHold.maxOffset_eq]
  unfold siblingOf at hNone
  split_ifs at hNone <;> omega

-- Construction and Roots

theorem HoldsBlock.startOf_eq
  (hBlock : IsBlock txids) (hHold : merklePath.HoldsBlock txids) {index : Nat} {txid : JsString}
  (hTxid : txids[index]? = some txid) :
  merklePath.startOf (some txid) = some { txid := txid, index := index } := by
  rcases List.getElem?_eq_some_iff.mp hTxid with ⟨hLt, _⟩
  rcases List.mem_map.mp (hHold.offsets.mem_iff.mpr (mem_range.mpr hLt)) with
    ⟨leaf, hLeaf, rfl⟩
  cases hFind : (merklePath.level 0).find? (fun leaf => leaf.hash = some txid) with
  | none =>
    have hNot := find?_eq_none.mp hFind leaf hLeaf
    rw [(hHold.leaf leaf hLeaf).1, hTxid] at hNot
    simp at hNot
  | some found =>
    have hFound := mem_of_find?_eq_some hFind
    have hHash : txids[found.offset]? = some txid := by
      rw [← (hHold.leaf found hFound).1]
      simpa using find?_some hFind
    have hSame :=
      (getElem?_inj (hHold.offset_lt hFound) hBlock.distinct).mp (hHash.trans hTxid.symm)
    simp [startOf, hFind, hSame]

theorem HoldsBlock.isSingleTransaction_iff (hHold : merklePath.HoldsBlock txids) :
  isSingleTransaction merklePath.path = true ↔ txids.length = 1 := by
  rcases length_eq_one_iff.mp hHold.single with ⟨leaves, hPath⟩
  have hLevel : merklePath.level 0 = leaves := by simp [level, hPath]
  have hCount := hHold.offsets.length_eq
  rw [hLevel, length_map, length_range] at hCount
  rw [hPath, ← hCount]
  constructor
  · intro hSingle
    unfold isSingleTransaction at hSingle
    split at hSingle
    · rename_i leaf hEq
      cases hEq
      rfl
    · cases hSingle
  · intro hOne
    rcases length_eq_one_iff.mp hOne with ⟨leaf, rfl⟩
    have hOff := @HoldsBlock.offset_lt _ _ leaf hHold (by simp [hLevel])
    rw [← hCount] at hOff
    simpa [isSingleTransaction] using hOff

theorem HoldsBlock.checkStructure_eq
  (hBlock : IsBlock txids) (hHold : merklePath.HoldsBlock txids) (legalOffsetsOnly : Bool) :
  checkStructure legalOffsetsOnly merklePath.path = .ok () := by
  rcases length_eq_one_iff.mp hHold.single with ⟨leaves, hPath⟩
  have hLevel : merklePath.level 0 = leaves := by simp [level, hPath]
  have hCount := hHold.offsets.length_eq
  rw [hLevel, length_map, length_range] at hCount
  have hPos := length_pos_of_ne_nil hBlock.nonempty
  have hNe : leaves ≠ [] := by
    rintro rfl
    simp at hCount
    omega
  have hCheck : checkLevel 0 none [] leaves = .ok () := by
    rw [checkLevel_eq_ok_iff, ← hLevel]
    refine ⟨fun leaf hLeaf => ⟨?_, by simp, by simp⟩, hHold.nodup⟩
    have hLt := hHold.offset_lt hLeaf
    have hLen := hBlock.length
    omega
  have hAssert : assertSingleTransactionOffset [leaves] = .ok () := by
    unfold assertSingleTransactionOffset
    split
    · rename_i leaf hEq
      cases hEq
      have hOff := @HoldsBlock.offset_lt _ _ leaf hHold (by simp [hLevel])
      rw [← hCount] at hOff
      simpa using hOff
    · rfl
  simp [checkStructure, hPath, checkLevels, hNe, hCheck, hAssert]

theorem HoldsBlock.wellFormed (hBlock : IsBlock txids) (hHold : merklePath.HoldsBlock txids) :
  merklePath.WellFormed :=
  wellFormed_of_checkStructure (hHold.checkStructure_eq hBlock true)

theorem HoldsBlock.computeRoot_eq
  (hBlock : IsBlock txids) (hHold : merklePath.HoldsBlock txids) {txid : JsString}
  (hTxid : txid ∈ txids) : ∃ root, MerkleTree.root merkleNode txids = some root ∧
      merklePath.computeRoot (some txid) = .ok root := by
  rcases mem_iff_getElem?.mp hTxid with ⟨index, hGet⟩
  have hStart := hHold.startOf_eq hBlock hGet
  have hAssert := (structure_of_construct (show construct merklePath.blockHeight merklePath.path
      true false = .ok merklePath by
    rw [construct, hHold.checkStructure_eq hBlock]
    rfl)).2.2
  have hEval (root : JsString) := computeRoot_eq_ok_iff hAssert (some txid) root
  rw [hStart] at hEval
  cases hSingle : isSingleTransaction merklePath.path with
  | true =>
    rcases length_eq_one_iff.mp (hHold.isSingleTransaction_iff.mp hSingle) with ⟨only, rfl⟩
    rw [mem_singleton] at hTxid
    subst hTxid
    refine ⟨txid, by rw [MerkleTree.root], ?_⟩
    exact (hEval txid).mpr ⟨_, rfl, by rw [hSingle]; rfl⟩
  | false =>
    have hPos := length_pos_of_ne_nil hBlock.nonempty
    have hTwo : 2 ≤ txids.length := by
      have hNot := mt hHold.isSingleTransaction_iff.mpr (by rw [hSingle]; simp)
      omega
    have hHeight := hHold.treeHeight_eq hTwo
    rcases @HoldsBlock.working_eq _ _ hBlock hHold
        { txid := txid, index := index } hGet
        merklePath.treeHeight with
      ⟨root, hNode, hWorking⟩
    refine ⟨root, ?_, (hEval root).mpr ⟨_, rfl, by rw [hSingle]; exact hWorking⟩⟩
    rw [hBlock.root_eq hTwo, ← hHeight, ← hNode]
    congr 1
    have hLt : index < txids.length := (List.getElem?_eq_some_iff.mp hGet).choose
    have hLe : index ≤ txids.length - 1 := by omega
    rw [Start.node, offsetAtHeight, eq_comm, hHeight, offsetTreeHeight, if_neg (by omega)]
    exact Nat.div_eq_of_lt (Nat.lt_of_le_of_lt hLe Nat.lt_log2_self)

theorem HoldsBlock.rootsAgree (hBlock : IsBlock txids) (hHold : merklePath.HoldsBlock txids) :
  ∃ root, MerkleTree.root merkleNode txids = some root ∧ merklePath.RootsAgree root := by
  have hStart
      (leaf : MerklePathLeaf)
      (hLeaf : leaf ∈ merklePath.level 0) :
      ∃ txid, leaf.hash = some txid ∧ txids[leaf.offset]? = some txid := by
    have hGet := getElem?_eq_getElem (hHold.offset_lt hLeaf)
    exact ⟨_, (hHold.leaf leaf hLeaf).1.trans hGet, hGet⟩
  rcases exists_mem_of_ne_nil _ hBlock.nonempty with ⟨first, hFst⟩
  rcases hHold.computeRoot_eq hBlock hFst with ⟨root, hRoot, _⟩
  refine ⟨root, hRoot, ?_, ?_⟩
  · intro leaf hLeaf
    rcases hStart leaf hLeaf with ⟨txid, hHash, hGet⟩
    rcases hHold.computeRoot_eq hBlock (mem_of_getElem? hGet) with ⟨other, hOther, hCompute⟩
    rw [hRoot] at hOther
    cases hOther
    rw [hHash]
    exact hCompute
  · intro left hLeft right hRight source start hSrc hTgt height _ hNode hash hWorking
    rcases hStart left hLeft with ⟨_, hHash, hGet⟩
    rcases hStart right hRight with ⟨_, hHash', hGet'⟩
    rw [hHash, hHold.startOf_eq hBlock hGet] at hSrc
    rw [hHash', hHold.startOf_eq hBlock hGet'] at hTgt
    cases hSrc
    cases hTgt
    rcases @HoldsBlock.working_eq _ _ hBlock hHold ⟨_, _⟩ hGet height with ⟨own, hOwn, hEq⟩
    rcases @HoldsBlock.working_eq _ _ hBlock hHold ⟨_, _⟩ hGet' height with ⟨other, hOther, hEq'⟩
    rw [← hNode, hOwn] at hOther
    cases hOther
    rw [hWorking] at hEq
    cases hEq
    exact hEq'

/-
  For every block, a path of one level that holds all its transactions is accepted by the
  constructor, and the root of each transaction is the Merkle root of the block.
-/
theorem computeRoot_of_holdsBlock
  {txids : List JsString} {merklePath : MerklePath} (legalOffsetsOnly : Bool)
  (hBlock : IsBlock txids) (hHolds : merklePath.HoldsBlock txids) :
  construct merklePath.blockHeight merklePath.path legalOffsetsOnly true = .ok merklePath ∧
  ∃ root, MerkleTree.root merkleNode txids = some root ∧ ∀ txid ∈ txids,
        merklePath.computeRoot (some txid) = .ok root := by
  rcases hHolds.rootsAgree hBlock with ⟨root, hRoot, hAgree⟩
  refine ⟨?_, root, hRoot, ?_⟩
  · refine (construct_eq_ok_iff _ _ _ _).mpr ⟨?_, root, hAgree⟩
    rw [construct, hHolds.checkStructure_eq hBlock]
    rfl
  · intro txid hTxid
    rcases hHolds.computeRoot_eq hBlock hTxid with ⟨other, hOther, hCompute⟩
    rw [hRoot] at hOther
    cases hOther
    exact hCompute

def idsOfThree : List JsString :=
  [toHex (List.replicate 32 1), toHex (List.replicate 32 2), toHex (List.replicate 32 3)]

theorem isBlock_idsOfThree : IsBlock idsOfThree where
  nonempty := by simp [idsOfThree]
  distinct := by decide +kernel
  txid := by
    intro txid hTxid
    simp only [idsOfThree, mem_cons, not_mem_nil, or_false] at hTxid
    rcases hTxid with rfl | rfl | rfl
    · exact isTxid_toHex (by simp)
    · exact isTxid_toHex (by simp)
    · exact isTxid_toHex (by simp)
  length := by decide

def blockOfThree : MerklePath where
  blockHeight := 100
  path :=
    [[{ offset := 0
        hash := idsOfThree[0]?
        txid := some true },
      { offset := 1, hash := idsOfThree[1]? },
      { offset := 2, hash := idsOfThree[2]? }]]

theorem holdsBlock_blockOfThree : blockOfThree.HoldsBlock idsOfThree where
  single := rfl
  offsets := List.Perm.refl _
  leaf := by
    intro leaf hLeaf
    simp only [level, blockOfThree, getD_cons_zero,
      mem_cons, not_mem_nil, or_false] at hLeaf
    rcases hLeaf with rfl | rfl | rfl
    · exact ⟨rfl, by simp⟩
    · exact ⟨rfl, by simp⟩
    · exact ⟨rfl, by simp⟩

theorem computeRoot_of_holdsBlock_blockOfThree :
  IsBlock idsOfThree ∧ blockOfThree.HoldsBlock idsOfThree ∧
    construct blockOfThree.blockHeight blockOfThree.path true true = .ok blockOfThree ∧
    ∃ root, MerkleTree.root merkleNode idsOfThree = some root ∧ ∀ txid ∈ idsOfThree,
          blockOfThree.computeRoot (some txid) = .ok root :=
  ⟨isBlock_idsOfThree, holdsBlock_blockOfThree,
    computeRoot_of_holdsBlock true isBlock_idsOfThree holdsBlock_blockOfThree⟩

end MerklePath

end TsStack
