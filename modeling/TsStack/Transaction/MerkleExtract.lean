import TsStack.Transaction.MerkleTrimRoots

/-
  `extract` of a path that holds a whole block.
-/

-- Extraction

open List

namespace TsStack.MerklePath

/- `Map.set` on the leaves of a level, by their offset. -/
def setLeaf (level : List MerklePathLeaf) (leaf : MerklePathLeaf) : List MerklePathLeaf :=
  if level.any (·.offset = leaf.offset) then
    level.map fun old => if old.offset = leaf.offset then leaf else old
  else level ++ [leaf]

variable (merklePath : MerklePath)

/- `createTxidToOffsetIndex`; the last leaf is kept. -/
def txidToOffset (txid : JsString) : Option Nat :=
  ((merklePath.level 0).reverse.find? (fun leaf => leaf.hash = some txid)).map (·.offset)

/-
  Add the sibling at an offset unless it is there; `marker`
  is what stands for a sibling that is not found.
-/
def collectSibling (height siblingOffset : Nat) (marker : Option MerklePathLeaf)
  (level : List MerklePathLeaf) (hashCache : HashCache) :
  Except JsError (List MerklePathLeaf × HashCache) :=
  if level.any (·.offset = siblingOffset) then .ok (level, hashCache)
  else do
    let (sibling, hashCache) ← merklePath.cachedFindLeaf height siblingOffset hashCache
    return ((sibling.or marker).elim level (setLeaf level), hashCache)

def siblingMarker (txOffset h : Nat) : Option MerklePathLeaf :=
  if sameNodeAtHeight txOffset merklePath.maxOffset h then
    some { offset := siblingOf (offsetAtHeight txOffset h)
           duplicate := some true }
  else none

def collectSiblings (merklePath : MerklePath) (txOffset : Nat) :
  Nat → List (List MerklePathLeaf) → HashCache → Except JsError
      (List (List MerklePathLeaf) × HashCache)
| _, [], hashCache => .ok ([], hashCache)
| h, level :: levels, hashCache => do
    let siblingOffset := siblingOf (offsetAtHeight txOffset h)
    let (level, hashCache) ←
      merklePath.collectSibling h siblingOffset (merklePath.siblingMarker txOffset h) level
        hashCache
    let (levels, hashCache) ← collectSiblings merklePath txOffset (h + 1) levels hashCache
    return (level :: levels, hashCache)

def collectExtractedLeaves (state : List (List MerklePathLeaf) × HashCache) (txid : JsString) :
  Except JsError (List (List MerklePathLeaf) × HashCache) :=
  match merklePath.txidToOffset txid, state.1 with
  | none, _ =>
      .error (.error ("Transaction ID " ++ String.ofList txid ++ " not found in the Merkle Path"))
  | some _, [] => .error undefinedError
  | some txOffset, level :: levels => do
      let (level, hashCache) ← merklePath.collectSibling 0 (siblingOf txOffset) none (setLeaf level
            { offset := txOffset
              txid := some true
              hash := some txid })
          state.2
      let (levels, hashCache) ← merklePath.collectSiblings txOffset 1 levels hashCache
      return (level :: levels, hashCache)

def extract (merklePath : MerklePath) (txids : List JsString) : Except JsError MerklePath :=
  if txids.length = 0 then .error (.error "At least one txid must be provided to extract")
  else do
    let originalRoot ← merklePath.computeRoot none
    let (neededPerLevel, _) ←
      txids.foldlM merklePath.collectExtractedLeaves (List.replicate merklePath.treeHeight [], [])
    let compound ← construct merklePath.blockHeight (neededPerLevel.map sortLevel) true true
    let compound ← compound.trim
    let extractedRoot ← compound.computeRoot none
    if extractedRoot ≠ originalRoot then
      .error (.error ("Extracted path root " ++ String.ofList extractedRoot ++
          " does not match original root " ++ String.ofList originalRoot))
    else return compound

variable {level : List MerklePathLeaf} {height index : Nat} {txid : JsString}
  {leaf : MerklePathLeaf} {hashCache : HashCache}

theorem mem_setLeaf (leaf other : MerklePathLeaf) :
  other ∈ setLeaf level leaf ↔ other = leaf ∨ other ∈ level ∧ other.offset ≠ leaf.offset := by
  unfold setLeaf
  split_ifs with hAny
  · rw [List.any_eq_true] at hAny
    rcases hAny with ⟨old, hOld, hOff⟩
    have hOff : old.offset = leaf.offset := by simpa using hOff
    rw [List.mem_map]
    constructor
    · rintro ⟨kept, hKept, rfl⟩
      split_ifs with hSame
      · exact .inl rfl
      · exact .inr ⟨hKept, hSame⟩
    · rintro (rfl | ⟨hMem, hNe⟩)
      · exact ⟨old, hOld, if_pos hOff⟩
      · exact ⟨other, hMem, if_neg hNe⟩
  · rw [mem_append, mem_singleton, or_comm]
    refine or_congr_right (and_iff_left_of_imp fun hMem hOff => ?_).symm
    exact hAny (List.any_eq_true.mpr ⟨other, hMem, by simpa using hOff⟩)

theorem nodup_setLeaf (leaf : MerklePathLeaf) (hNodup : (level.map (·.offset)).Nodup) :
  ((setLeaf level leaf).map (·.offset)).Nodup := by
  unfold setLeaf
  split_ifs with hAny
  · rw [List.map_map]
    have hSame :
        ((·.offset) ∘ fun old : MerklePathLeaf => if old.offset = leaf.offset then leaf else old) =
          (·.offset) := by
      funext old
      simp only [Function.comp_apply]
      split_ifs with hOff
      · exact hOff.symm
      · rfl
    rw [hSame]
    exact hNodup
  · rw [map_append, nodup_append]
    refine ⟨hNodup, by simp, ?_⟩
    intro offset hOff other hOther hEq
    rcases List.mem_map.mp hOff with ⟨old, hOld, rfl⟩
    refine hAny (List.any_eq_true.mpr ⟨old, hOld, ?_⟩)
    have hLeaf : other = leaf.offset := by simpa using hOther
    simpa using hEq.trans hLeaf

-- Needed Leaves

variable {txids : List JsString} {merklePath : MerklePath}

/-
  A level that holds the siblings on the way of the requested offsets, and at level zero these as
  well, each leaf reading the node at its offset.
-/
structure Needed (txids : List JsString) (requested : Nat → Prop) (height : Nat)
  (level : List MerklePathLeaf) : Prop where
  nodup : (level.map (·.offset)).Nodup
  inside : height = 0 → ∀ leaf ∈ level, leaf.offset < txids.length
  reads : ∀ leaf ∈ level, Reads (some leaf) (treeNode txids height leaf.offset)
  beside : ∀ leaf ∈ level, ∃ index, requested index ∧ (leaf.offset =
          siblingOf (offsetAtHeight index height) ∨
        height = 0 ∧ leaf.offset = index)
  own : height = 0 → ∀ index, requested index → ∃ leaf ∈ level,
        leaf.offset = index ∧ leaf.txid = some true
  sibling : ∀ index, requested index → (0 < height ∨ siblingOf index < txids.length) →
        ∃ leaf ∈ level, leaf.offset = siblingOf (offsetAtHeight index height)

def NeededFrom (txids : List JsString) (requested : Nat → Prop) :
  Nat → List (List MerklePathLeaf) → Prop
| _, [] => True
| height, level :: levels =>
    Needed txids requested height level ∧ NeededFrom txids requested (height + 1) levels

variable {offset : Nat}

theorem mem_of_findOrComputeLeaf_zero
  (hFind : merklePath.findOrComputeLeaf 0 offset = .ok (some leaf)) :
  leaf ∈ merklePath.level 0 := by
  rw [findOrComputeLeaf, bind_eq_ok_iff] at hFind
  rcases hFind with ⟨_, _, hFind⟩
  cases hLeaf : (merklePath.level 0).find? (fun leaf => leaf.offset = offset) with
  | none =>
      rw [hLeaf] at hFind
      cases hFind
  | some stored =>
      rw [hLeaf] at hFind
      cases hFind
      exact mem_of_find?_eq_some hLeaf

theorem hashPair_ne_nil
  {left right : Option JsString} {hash : JsString} (hHash : hashPair left right = .ok hash) :
  hash ≠ [] := by
  rcases bind_eq_ok_iff.mp hHash with ⟨_, _, hEq⟩
  cases hEq
  exact (isTxid_toHex (by simp)).ne_nil

theorem eq_of_parentLeaf {h l : Nat} {hash0 : JsString} {right : Option MerklePathLeaf}
  (hParent : merklePath.parentLeaf offset h l hash0 right = .ok (some leaf)) :
  ∃ hash, hash ≠ [] ∧ leaf = { offset := offset, hash := some hash } := by
  have hHashed
      {left right : Option JsString}
      (hPair :
        (hashPair left right >>= fun hash =>
            pure (some { offset := offset
                         hash := some hash } :
              Option MerklePathLeaf)) =
          .ok (some leaf)) :
      ∃ hash, hash ≠ [] ∧ leaf = { offset := offset, hash := some hash } := by
    rcases bind_eq_ok_iff.mp hPair with ⟨hash, hHash, hEq⟩
    cases hEq
    exact ⟨hash, hashPair_ne_nil hHash, rfl⟩
  unfold parentLeaf at hParent
  cases hRight : right.bind (·.hash) with
  | none =>
      rw [hRight] at hParent
      simp only at hParent
      split_ifs at hParent
      · exact hHashed hParent
      · exact hHashed hParent
      · cases hParent
  | some hash1 =>
      rw [hRight] at hParent
      simp only at hParent
      split_ifs at hParent
      · exact hHashed hParent
      · exact hHashed hParent

/- A computed node, from the two nodes below it. -/
theorem computedLeaf_eq_some_iff {h : Nat} {parent : MerklePathLeaf} :
  merklePath.computedLeaf h offset = .ok (some parent) ↔ offset * 2 ≤ maxSafeInteger ∧
      ∃ leaf0 hash0 leaf1, merklePath.findOrComputeLeaf h (offset * 2) = .ok (some leaf0) ∧
          leaf0.presentHash = some hash0 ∧
          merklePath.findOrComputeLeaf h (offset * 2 + 1) = .ok leaf1 ∧
          merklePath.parentLeaf offset h (offset * 2) hash0 leaf1 = .ok (some parent) := by
  unfold computedLeaf
  split_ifs with hSafe
  · rw [bind_eq_ok_iff]
    constructor
    · rintro ⟨leaf0, hFind, hRest⟩
      cases hHash : leaf0.bind (·.presentHash) with
      | none =>
          rw [hHash] at hRest
          cases hRest
      | some hash0 =>
          rw [hHash] at hRest
          rcases bind_eq_ok_iff.mp hRest with ⟨leaf1, hFind1, hParent⟩
          rcases Option.bind_eq_some_iff.mp hHash with ⟨found, rfl, hPresent⟩
          exact ⟨by simpa using hSafe, found, hash0, leaf1, hFind, hPresent, hFind1, hParent⟩
    · rintro ⟨_, leaf0, hash0, leaf1, hFind, hHash, hFind1, hParent⟩
      refine ⟨some leaf0, hFind, ?_⟩
      simp only [Option.bind_some, hHash]
      rw [hFind1]
      exact hParent
  · constructor
    · exact nofun
    · rintro ⟨hLe, _⟩
      exact absurd (by simpa using hLe) hSafe

theorem stored_or_computed (hFind : merklePath.findOrComputeLeaf height offset = .ok (some leaf)) :
  leaf.offset = offset ∧ (leaf ∈ merklePath.level height ∨ ∃ hash, hash ≠ [] ∧
        leaf = { offset := offset, hash := some hash }) := by
  have hStore
      {leaves : List MerklePathLeaf}
      (hLeaf : leaves.find? (fun leaf => leaf.offset = offset) = some leaf) :
      leaf.offset = offset := by
    simpa using find?_some hLeaf
  cases height with
  | zero =>
      rw [findOrComputeLeaf, bind_eq_ok_iff] at hFind
      rcases hFind with ⟨_, _, hFind⟩
      cases hLeaf : (merklePath.level 0).find? (fun leaf => leaf.offset = offset) with
      | none =>
          rw [hLeaf] at hFind
          cases hFind
      | some stored =>
          rw [hLeaf] at hFind
          cases hFind
          exact ⟨hStore hLeaf, .inl (mem_of_find?_eq_some hLeaf)⟩
  | succ height =>
      rw [findOrComputeLeaf_succ, bind_eq_ok_iff] at hFind
      rcases hFind with ⟨_, _, hFind⟩
      cases hLeaf : (merklePath.level (height + 1)).find? (fun leaf => leaf.offset = offset) with
      | some stored =>
          rw [hLeaf] at hFind
          cases hFind
          exact ⟨hStore hLeaf, .inl (mem_of_find?_eq_some hLeaf)⟩
      | none =>
          rw [hLeaf, Option.elim_none, computedLeaf_eq_some_iff] at hFind
          rcases hFind with ⟨_, _, _, _, _, _, _, hParent⟩
          rcases eq_of_parentLeaf hParent with ⟨hash, hNe, rfl⟩
          exact ⟨rfl, .inr ⟨hash, hNe, rfl⟩⟩

theorem collectSibling_eq {siblingOffset : Nat} {marker sibling : Option MerklePathLeaf}
    (hWf : merklePath.WellFormed)
  (hSafe : siblingOffset ≤ maxSafeInteger) (hCache : merklePath.LeafCache hashCache)
  (hNodup : (level.map (·.offset)).Nodup)
  (hFind : merklePath.findOrComputeLeaf height siblingOffset = .ok sibling)
  (hMarker : ∀ leaf, marker = some leaf → leaf.offset = siblingOffset) :
  ∃ level' hashCache', merklePath.collectSibling height siblingOffset marker level hashCache =
      .ok (level', hashCache') ∧
    merklePath.LeafCache hashCache' ∧ (level'.map (·.offset)).Nodup ∧
    ∀ leaf, leaf ∈ level' ↔ leaf ∈ level ∨ (∀ old ∈ level, old.offset ≠ siblingOffset) ∧
          sibling.or marker = some leaf := by
  unfold collectSibling
  split_ifs with hAny
  · refine ⟨level, hashCache, rfl, hCache, hNodup, fun leaf => (or_iff_left ?_).symm⟩
    rintro ⟨hNone, _⟩
    rcases List.any_eq_true.mp hAny with ⟨old, hOld, hEq⟩
    exact hNone old hOld (by simpa using hEq)
  · have hNone : ∀ old ∈ level, old.offset ≠ siblingOffset := by
      intro old hOld hEq
      exact hAny (List.any_eq_true.mpr ⟨old, hOld, by simpa using hEq⟩)
    rcases cachedFindLeaf_eq hWf height hSafe hCache with ⟨hashCache', hCache', hEq⟩
    rw [hEq, hFind]
    refine ⟨_, hashCache', rfl, hCache', ?_⟩
    cases hFound : sibling.or marker with
    | none => simpa [hFound] using hNodup
    | some found =>
        have hOff : found.offset = siblingOffset := by
          cases sibling with
          | none => exact hMarker found hFound
          | some leaf =>
              cases hFound
              exact (stored_or_computed hFind).1
        simp only [Option.elim_some]
        refine ⟨nodup_setLeaf found hNodup, fun leaf => ?_⟩
        rw [mem_setLeaf, or_comm, hOff]
        refine or_congr (and_iff_left_of_imp (hNone leaf)) ?_
        rw [and_iff_right hNone, Option.some.injEq, eq_comm]

theorem siblingOf_offsetAtHeight_le
  (hBlock : IsBlock txids) (hIdx : index < txids.length) (height : Nat) :
  siblingOf (offsetAtHeight index height) ≤
    maxSafeInteger := by
  have hLe : offsetAtHeight index height ≤ index := Nat.div_le_self _ _
  have hLen := hBlock.length
  exact siblingOf_le (by omega)

variable {requested : Nat → Prop}

theorem Needed.add_above (hBlock : IsBlock txids) (hHold : merklePath.HoldsBlock txids)
  (hIdx : index < txids.length) (hHeight : height ≠ 0)
  (hNeeded : Needed txids requested height level) (hCache : merklePath.LeafCache hashCache) :
  ∃ level' hashCache', merklePath.collectSibling height (siblingOf (offsetAtHeight index height))
        (merklePath.siblingMarker index height) level hashCache =
      .ok (level', hashCache') ∧
    merklePath.LeafCache hashCache' ∧
    Needed txids (fun j => requested j ∨ j = index) height level' := by
  have hSafe := siblingOf_offsetAtHeight_le hBlock hIdx height
  rcases hHold.findOrComputeLeaf_reads hBlock hSafe with ⟨sibling, hFind, hReads⟩
  have hMarker
      (leaf : MerklePathLeaf)
      (hLeaf : merklePath.siblingMarker index height = some leaf) :
      leaf.offset = siblingOf (offsetAtHeight index height) := by
    unfold siblingMarker at hLeaf
    split_ifs at hLeaf
    cases hLeaf
    rfl
  rcases collectSibling_eq (hHold.wellFormed hBlock) hSafe hCache hNeeded.nodup hFind hMarker with
    ⟨level', hashCache', hEq, hCache', hNodup, hMem⟩
  refine ⟨level', hashCache', hEq, hCache', ?_⟩
  have hAdded : ∃ leaf, sibling.or (merklePath.siblingMarker index height) = some leaf ∧
          leaf.offset = siblingOf (offsetAtHeight index height) ∧ Reads (some leaf)
            (treeNode txids height leaf.offset) := by
    cases sibling with
    | some leaf =>
        have hOff := (stored_or_computed hFind).1
        exact ⟨leaf, rfl, hOff, by rwa [hOff]⟩
    | none =>
        have hSame : sameNodeAtHeight index merklePath.maxOffset height = true := by
          have hNone := (hBlock.treeNode_eq_none_iff _ _).mp hReads
          have hLe : index ≤ txids.length - 1 := by omega
          have hDiv : offsetAtHeight index height ≤ offsetAtHeight (txids.length - 1) height :=
            Nat.div_le_div_right hLe
          simp only [sameNodeAtHeight, hHold.maxOffset_eq, decide_eq_true_eq]
          unfold siblingOf at hNone
          split_ifs at hNone <;> omega
        have hAbsent : treeNode txids height (siblingOf (offsetAtHeight index height)) =
                none :=
          hReads
        rw [siblingMarker, if_pos hSame]
        refine ⟨_, rfl, rfl, ?_⟩
        rw [hAbsent]
        exact ⟨rfl, rfl⟩
  rcases hAdded with ⟨added, hAdded, hOff, hRead⟩
  simp only [hAdded, Option.some.injEq] at hMem
  refine ⟨hNodup, fun hZero => absurd hZero hHeight, ?_, ?_, fun hZero => absurd hZero hHeight, ?_⟩
  · intro leaf hLeaf
    rcases (hMem leaf).mp hLeaf with hOld | ⟨_, rfl⟩
    · exact hNeeded.reads leaf hOld
    · exact hRead
  · intro leaf hLeaf
    rcases (hMem leaf).mp hLeaf with hOld | ⟨_, rfl⟩
    · rcases hNeeded.beside leaf hOld with ⟨j, hReq, hBeside⟩
      exact ⟨j, .inl hReq, hBeside⟩
    · exact ⟨index, .inr rfl, .inl hOff⟩
  · rintro j (hReq | rfl) hReach
    · rcases hNeeded.sibling j hReq hReach with ⟨leaf, hLeaf, hEq⟩
      exact ⟨leaf, (hMem leaf).mpr (.inl hLeaf), hEq⟩
    · by_cases hOld : ∃ old ∈ level, old.offset = siblingOf (offsetAtHeight j height)
      · rcases hOld with ⟨old, hOld, hEq⟩
        exact ⟨old, (hMem old).mpr (.inl hOld), hEq⟩
      · refine ⟨added, (hMem added).mpr (.inr ⟨?_, rfl⟩), hOff⟩
        exact fun old hOld' hEq => hOld ⟨old, hOld', hEq⟩

theorem Needed.add_zero (hBlock : IsBlock txids) (hHold : merklePath.HoldsBlock txids)
  (hTxid : txids[index]? = some txid) (hNeeded : Needed txids requested 0 level)
  (hCache : merklePath.LeafCache hashCache) :
  ∃ level' hashCache', merklePath.collectSibling 0 (siblingOf index) none (setLeaf level
          { offset := index
            txid := some true
            hash := some txid })
        hashCache =
      .ok (level', hashCache') ∧
    merklePath.LeafCache hashCache' ∧
    Needed txids (fun j => requested j ∨ j = index) 0 level' := by
  have hIdx : index < txids.length := (List.getElem?_eq_some_iff.mp hTxid).choose
  have hSafe : siblingOf index ≤ maxSafeInteger := by
    simpa [offsetAtHeight] using siblingOf_offsetAtHeight_le hBlock hIdx 0
  rcases hHold.findOrComputeLeaf_reads hBlock hSafe with ⟨sibling, hFind, hReads⟩
  have hMarker
      (leaf : MerklePathLeaf)
      (hLeaf : none = some leaf) :
      leaf.offset = siblingOf index := by
    cases hLeaf
  rcases collectSibling_eq (hHold.wellFormed hBlock) hSafe hCache (nodup_setLeaf
        { offset := index
          txid := some true
          hash := some txid } hNeeded.nodup)
      hFind hMarker with
    ⟨level', hashCache', hEq, hCache', hNodup, hMem⟩
  refine ⟨level', hashCache', hEq, hCache', hNodup, fun _ => ?_, ?_, ?_, fun _ => ?_, ?_⟩
  · intro leaf hLeaf
    rcases (hMem leaf).mp hLeaf with hOld | ⟨_, hAdded⟩
    · rcases (mem_setLeaf _ _).mp hOld with rfl | ⟨hOld, _⟩
      · exact hIdx
      · exact hNeeded.inside rfl leaf hOld
    · rw [Option.or_none] at hAdded
      rw [hAdded] at hFind
      exact hHold.offset_lt (mem_of_findOrComputeLeaf_zero hFind)
  · intro leaf hLeaf
    rcases (hMem leaf).mp hLeaf with hOld | ⟨_, hAdded⟩
    · rcases (mem_setLeaf _ _).mp hOld with rfl | ⟨hOld, _⟩
      · have hNode : treeNode txids 0 index = some txid := hTxid
        rw [hNode]
        exact ⟨rfl, by simp⟩
      · exact hNeeded.reads leaf hOld
    · rw [Option.or_none] at hAdded
      rw [hAdded] at hFind hReads
      rw [(stored_or_computed hFind).1]
      exact hReads
  · intro leaf hLeaf
    rcases (hMem leaf).mp hLeaf with hOld | ⟨_, hAdded⟩
    · rcases (mem_setLeaf _ _).mp hOld with rfl | ⟨hOld, _⟩
      · exact ⟨index, .inr rfl, .inr ⟨rfl, rfl⟩⟩
      · rcases hNeeded.beside leaf hOld with ⟨j, hReq, hBeside⟩
        exact ⟨j, .inl hReq, hBeside⟩
    · rw [Option.or_none] at hAdded
      rw [hAdded] at hFind
      refine ⟨index, .inr rfl, .inl ?_⟩
      rw [(stored_or_computed hFind).1, offsetAtHeight, Nat.pow_zero, Nat.div_one]
  · have hKept
        {j : Nat}
        (hLeaf : ∃ leaf ∈ level, leaf.offset = j ∧ leaf.txid = some true) :
        ∃ leaf ∈ level', leaf.offset = j ∧ leaf.txid = some true := by
      rcases hLeaf with ⟨leaf, hLeaf, hOff, hFlag⟩
      by_cases hSame : leaf.offset = index
      · exact ⟨_, (hMem _).mpr (.inl ((mem_setLeaf _ _).mpr (.inl rfl))),
          hSame.symm.trans hOff, rfl⟩
      · exact ⟨leaf, (hMem leaf).mpr (.inl ((mem_setLeaf _ _).mpr (.inr ⟨hLeaf, hSame⟩))),
          hOff, hFlag⟩
    rintro j (hReq | rfl)
    · exact hKept (hNeeded.own rfl j hReq)
    · exact ⟨_, (hMem _).mpr (.inl ((mem_setLeaf _ _).mpr (.inl rfl))), rfl, rfl⟩
  · simp only [offsetAtHeight, Nat.pow_zero, Nat.div_one]
    rintro j (hReq | rfl) hReach
    · rcases hNeeded.sibling j hReq hReach with ⟨leaf, hLeaf, hOff⟩
      rw [offsetAtHeight, Nat.pow_zero, Nat.div_one] at hOff
      by_cases hSame : leaf.offset = index
      · exact ⟨_, (hMem _).mpr (.inl ((mem_setLeaf _ _).mpr (.inl rfl))), hSame.symm.trans hOff⟩
      · exact ⟨leaf, (hMem leaf).mpr (.inl ((mem_setLeaf _ _).mpr (.inr ⟨hLeaf, hSame⟩))), hOff⟩
    · by_cases hOld : ∃ old ∈ setLeaf level
            { offset := j
              txid := some true
              hash := some txid },
            old.offset = siblingOf j
      · rcases hOld with ⟨old, hOld, hOff⟩
        exact ⟨old, (hMem old).mpr (.inl hOld), hOff⟩
      · have hSome : ∃ hash, treeNode txids 0 (siblingOf j) = some hash :=
          ⟨_, getElem?_eq_getElem (hReach.resolve_left (Nat.lt_irrefl 0))⟩
        rcases hSome with ⟨hash, hNode⟩
        rw [hNode] at hReads
        rcases hReads.exists_leaf with ⟨added, rfl, _⟩
        refine ⟨added, (hMem added).mpr (.inr ⟨?_, rfl⟩), (stored_or_computed hFind).1⟩
        exact fun old hOld' hEq => hOld ⟨old, hOld', hEq⟩

theorem NeededFrom.add_above {requested : Nat → Prop} {levels : List (List MerklePathLeaf)}
  (hBlock : IsBlock txids) (hHold : merklePath.HoldsBlock txids)
  (hIdx : index < txids.length) (hHeight : height ≠ 0)
  (hNeeded : NeededFrom txids requested height levels) (hCache : merklePath.LeafCache hashCache) :
  ∃ levels' hashCache', merklePath.collectSiblings index height levels hashCache =
      .ok (levels', hashCache') ∧
    merklePath.LeafCache hashCache' ∧ levels'.length = levels.length ∧
    NeededFrom txids (fun j => requested j ∨ j = index) height levels' := by
  induction levels generalizing height hashCache with
  | nil => exact ⟨[], hashCache, rfl, hCache, rfl, trivial⟩
  | cons level levels ih =>
      rcases hNeeded.1.add_above hBlock hHold hIdx hHeight hCache with
        ⟨level', cache', hEq, hCache', hNeeded'⟩
      rcases ih (Nat.succ_ne_zero height) hNeeded.2 hCache' with
        ⟨levels', cache'', hEq', hCache'', hLen, hRest⟩
      refine ⟨level' :: levels', cache'', ?_, hCache'', by simp [hLen], hNeeded', hRest⟩
      rw [collectSiblings, hEq, ok_bind]
      simp only [hEq', ok_bind]
      rfl

theorem HoldsBlock.txidToOffset_eq (hBlock : IsBlock txids) (hHold : merklePath.HoldsBlock txids)
  (hTxid : txids[index]? = some txid) : merklePath.txidToOffset txid = some index := by
  have hStart := hHold.startOf_eq hBlock hTxid
  have hSame : (merklePath.level 0).reverse.find? (fun leaf => leaf.hash = some txid) =
        (merklePath.level 0).find? (fun leaf => leaf.hash = some txid) := by
    refine find?_perm_of_unique (reverse_perm _) ?_
    intro a ha b hb haHash hbHash
    rw [mem_reverse] at ha hb
    simp only [decide_eq_true_eq] at haHash hbHash
    rw [(hHold.leaf a ha).1] at haHash
    rw [(hHold.leaf b hb).1] at hbHash
    exact inj_on_of_nodup_map hHold.nodup ha hb ((getElem?_inj (hHold.offset_lt ha)
      hBlock.distinct).mp (haHash.trans hbHash.symm))
  rw [startOf, Option.some_or, Option.bind_some, Option.map_eq_some_iff] at hStart
  rcases hStart with ⟨leaf, hFind, hEq⟩
  cases hEq
  rw [txidToOffset, hSame, hFind]
  rfl

theorem collectExtractedLeaves_needed
  {state : List (List MerklePathLeaf) × HashCache} (hBlock : IsBlock txids)
  (hHold : merklePath.HoldsBlock txids) (hTxid : txids[index]? = some txid)
  (hLevels : state.1 ≠ []) (hNeeded : NeededFrom txids requested 0 state.1)
  (hCache : merklePath.LeafCache state.2) :
  ∃ state', merklePath.collectExtractedLeaves state txid = .ok state' ∧
    merklePath.LeafCache state'.2 ∧ state'.1.length = state.1.length ∧
    NeededFrom txids (fun j => requested j ∨ j = index) 0 state'.1 := by
  rcases state with ⟨levels, hashCache⟩
  cases levels with
  | nil => exact absurd rfl hLevels
  | cons level levels =>
      rcases hNeeded.1.add_zero hBlock hHold hTxid hCache with
        ⟨level', cache', hEq, hCache', hNeeded'⟩
      rcases hNeeded.2.add_above hBlock hHold (List.getElem?_eq_some_iff.mp hTxid).choose
          (Nat.succ_ne_zero 0) hCache' with
        ⟨levels', cache'', hEq', hCache'', hLen, hRest⟩
      refine ⟨(level' :: levels', cache''), ?_, hCache'', by simp [hLen], hNeeded', hRest⟩
      rw [collectExtractedLeaves, hHold.txidToOffset_eq hBlock hTxid]
      simp only [hEq, hEq', ok_bind]
      rfl

theorem foldlM_collectExtractedLeaves
  {ids : List JsString} {state : List (List MerklePathLeaf) × HashCache}
  (hBlock : IsBlock txids) (hHold : merklePath.HoldsBlock txids)
  (hIds : ∀ txid ∈ ids, txid ∈ txids) (hLevels : state.1 ≠ [])
  (hNeeded : NeededFrom txids requested 0 state.1) (hCache : merklePath.LeafCache state.2) :
  ∃ state', ids.foldlM merklePath.collectExtractedLeaves state = .ok state' ∧
    state'.1.length = state.1.length ∧
    NeededFrom txids (fun j => requested j ∨ ∃ txid ∈ ids, txids[j]? = some txid) 0 state'.1 := by
  induction ids generalizing requested state with
  | nil => exact ⟨state, rfl, rfl, by simpa using hNeeded⟩
  | cons txid ids ih =>
      rcases mem_iff_getElem?.mp (hIds txid mem_cons_self) with ⟨index, hTxid⟩
      rcases collectExtractedLeaves_needed hBlock hHold hTxid hLevels hNeeded hCache with
        ⟨next, hEq, hCache', hLen, hNeeded'⟩
      have hNext : next.1 ≠ [] := by
        intro hNil
        rw [hNil] at hLen
        exact hLevels (length_eq_zero_iff.mp hLen.symm)
      rcases ih (fun other h => hIds other (mem_cons_of_mem _ h)) hNext hNeeded' hCache' with
        ⟨last, hFold, hLen', hAll⟩
      refine ⟨last, ?_, hLen'.trans hLen, ?_⟩
      · rw [foldlM_cons, hEq]
        exact hFold
      · have hSame : (fun j => (requested j ∨ j = index) ∨ ∃ txid ∈ ids, txids[j]? = some txid) =
              fun j => requested j ∨ ∃ other ∈ txid :: ids, txids[j]? = some other := by
          funext j
          have hIdx : j = index ↔ txids[j]? = some txid := by
            constructor
            · rintro rfl
              exact hTxid
            · intro hGet
              exact (getElem?_inj (List.getElem?_eq_some_iff.mp hGet).choose
                hBlock.distinct).mp (hGet.trans hTxid.symm)
          rw [hIdx, or_assoc]
          simp only [mem_cons, exists_eq_or_imp]
        rw [← hSame]
        exact hAll

-- The Compound Path

variable {compound : MerklePath} {requested : Nat → Prop}

/- Needed leaves in the order of their offsets. -/
theorem Needed.sortLevel
    (hNeeded : Needed txids requested height level) :
  Needed txids requested height (MerklePath.sortLevel level) where
  nodup := ((sortLevel_perm _).map _).nodup_iff.mpr hNeeded.nodup
  inside hZero leaf hLeaf := hNeeded.inside hZero leaf ((mem_sortLevel _ _).mp hLeaf)
  reads leaf hLeaf := hNeeded.reads leaf ((mem_sortLevel _ _).mp hLeaf)
  beside leaf hLeaf := hNeeded.beside leaf ((mem_sortLevel _ _).mp hLeaf)
  own := by
    simp only [mem_sortLevel]
    exact hNeeded.own
  sibling := by
    simp only [mem_sortLevel]
    exact hNeeded.sibling

theorem NeededFrom.getElem? {start : Nat} {levels : List (List MerklePathLeaf)}
  (hNeeded : NeededFrom txids requested start levels) (hGet : levels[height]? = some level) :
  Needed txids requested (start + height) level := by
  induction levels generalizing start height with
  | nil => cases hGet
  | cons head levels ih =>
      cases height with
      | zero =>
          cases hGet
          exact hNeeded.1
      | succ height =>
          rw [Nat.add_comm height, ← Nat.add_assoc]
          exact ih hNeeded.2 hGet

/-
  A path of several levels that holds what is needed for offsets whose siblings are in the block.
-/
structure ExtractedFrom
  (txids : List JsString) (requested : Nat → Prop) (compound : MerklePath) : Prop where
  two : 2 ≤ txids.length
  length : compound.path.length = offsetTreeHeight (txids.length - 1)
  needed : ∀ height < compound.path.length, Needed txids requested height (compound.level height)
  nonempty : ∃ index, requested index
  index : ∀ index, requested index → index < txids.length ∧ siblingOf index < txids.length

theorem ExtractedFrom.length_pos (hFrom : ExtractedFrom txids requested compound) :
  0 < compound.path.length := by
  have hTwo := hFrom.two
  rw [hFrom.length, offsetTreeHeight, if_neg (by omega)]
  exact Nat.succ_pos _

variable {leaf : MerklePathLeaf}

theorem ExtractedFrom.leaf_zero
  (hFrom : ExtractedFrom txids requested compound) (hLeaf : leaf ∈ compound.level 0) :
  leaf.offset < txids.length ∧ leaf.hash = txids[leaf.offset]? ∧
      leaf.duplicate ≠ some true ∧ ∃ index, requested index ∧ leaf.offset / 2 = index / 2 := by
  have hNeeded := hFrom.needed 0 hFrom.length_pos
  rcases hNeeded.beside leaf hLeaf with ⟨index, hReq, hBeside⟩
  rcases hFrom.index index hReq with ⟨hOwn, hSib⟩
  rw [offsetAtHeight, Nat.pow_zero, Nat.div_one] at hBeside
  have hLt : leaf.offset < txids.length := by
    rcases hBeside with hEq | ⟨_, hEq⟩
    · rwa [hEq]
    · rwa [hEq]
  have hReads := hNeeded.reads leaf hLeaf
  have hNode : treeNode txids 0 leaf.offset = some txids[leaf.offset] :=
    getElem?_eq_getElem hLt
  rw [hNode] at hReads
  rw [getElem?_eq_getElem hLt]
  refine ⟨hLt, hReads.1, hReads.2, index, hReq, ?_⟩
  rcases hBeside with hEq | ⟨_, hEq⟩
  · rw [hEq, siblingOf_half]
  · rw [hEq]

theorem ExtractedFrom.distinct
  (hBlock : IsBlock txids) (hFrom : ExtractedFrom txids requested compound) :
  HashesDistinct (compound.level 0) := by
  intro left hLeft right hRight _ hHash
  rcases hFrom.leaf_zero hLeft with ⟨hLt, hEq, _⟩
  rw [hEq, (hFrom.leaf_zero hRight).2.1] at hHash
  exact inj_on_of_nodup_map (hFrom.needed 0 hFrom.length_pos).nodup hLeft hRight
    ((getElem?_inj hLt hBlock.distinct).mp hHash)

theorem ExtractedFrom.exists_sibling (hFrom : ExtractedFrom txids requested compound)
  (hLeaf : leaf ∈ compound.level 0) (hHeight : height < compound.path.length) :
  ∃ stored ∈ compound.level height, stored.offset =
      siblingOf (offsetAtHeight leaf.offset height) := by
  rcases hFrom.leaf_zero hLeaf with ⟨_, _, _, index, hReq, hHalf⟩
  have hNeeded := hFrom.needed height hHeight
  cases height with
  | zero =>
      simp only [offsetAtHeight, Nat.pow_zero, Nat.div_one]
      rcases eq_or_siblingOf hHalf with hEq | hEq
      · rcases hNeeded.sibling index hReq (.inr (hFrom.index index hReq).2) with
          ⟨stored, hStore, hOff⟩
        rw [offsetAtHeight, Nat.pow_zero, Nat.div_one] at hOff
        exact ⟨stored, hStore, by rw [hOff, hEq]⟩
      · rcases hNeeded.own rfl index hReq with ⟨stored, hStore, hOff, _⟩
        exact ⟨stored, hStore, by rw [hOff, hEq, siblingOf_siblingOf]⟩
  | succ height =>
      rcases hNeeded.sibling index hReq (.inl (Nat.succ_pos height)) with
        ⟨stored, hStore, hOff⟩
      refine ⟨stored, hStore, hOff.trans ?_⟩
      simp only [offsetAtHeight, Nat.pow_succ', ← Nat.div_div_eq_div_mul, hHalf]

theorem ExtractedFrom.wellFormed
  (hBlock : IsBlock txids) (hFrom : ExtractedFrom txids requested compound) :
  compound.WellFormed := by
  constructor
  · intro height leaf hLeaf
    by_cases hHeight : height < compound.path.length
    · rcases (hFrom.needed height hHeight).beside leaf hLeaf with ⟨index, hReq, hBeside⟩
      have hOwn := (hFrom.index index hReq).1
      have hSafe := siblingOf_offsetAtHeight_le hBlock hOwn height
      have hLen := hBlock.length
      rcases hBeside with hEq | ⟨_, hEq⟩
      · rwa [hEq]
      · omega
    · rw [level_eq_nil (Nat.not_lt.mp hHeight)] at hLeaf
      cases hLeaf
  · intro height
    by_cases hHeight : height < compound.path.length
    · exact (hFrom.needed height hHeight).nodup
    · rw [level_eq_nil (Nat.not_lt.mp hHeight)]
      exact nodup_nil

theorem ExtractedFrom.treeHeight_eq (hFrom : ExtractedFrom txids requested compound) :
  compound.treeHeight = compound.path.length := by
  refine Nat.max_eq_left ?_
  rw [offsetTreeHeight_le_iff]
  refine Nat.lt_of_le_of_lt (@maxOffset_le _ (txids.length - 1) ?_) ?_
  · intro leaf hLeaf
    have hLt := (hFrom.leaf_zero hLeaf).1
    omega
  · rw [hFrom.length]
    exact (offsetTreeHeight_le_iff _ _).mp (Nat.le_refl _)

theorem ExtractedFrom.find_sibling (hBlock : IsBlock txids)
  (hFrom : ExtractedFrom txids requested compound) (hLeaf : leaf ∈ compound.level 0)
  (hHeight : height < compound.path.length) :
  ∃ stored, compound.findOrComputeLeaf height (siblingOf (offsetAtHeight leaf.offset height)) =
      .ok (some stored) ∧
    Reads (some stored) (treeNode txids height (siblingOf
          (offsetAtHeight leaf.offset height))) := by
  rcases hFrom.exists_sibling hLeaf hHeight with ⟨stored, hStore, hOff⟩
  have hWf := hFrom.wellFormed hBlock
  refine ⟨stored, ?_, ?_⟩
  · refine findOrComputeLeaf_of_find? ?_ ((find?_offset_eq_some_iff
        (hWf.nodup height)).mpr ⟨hStore, hOff⟩)
    exact hOff ▸ hWf.safe height stored hStore
  · rw [← hOff]
    exact (hFrom.needed height hHeight).reads stored hStore

theorem ExtractedFrom.computedLeaf_own (hBlock : IsBlock txids)
  (hFrom : ExtractedFrom txids requested compound) (hLeaf : leaf ∈ compound.level 0)
  (hHeight : height + 1 < compound.path.length) (hOwn :
    ∃ found, compound.findOrComputeLeaf height (offsetAtHeight leaf.offset height) = .ok found ∧
      Reads found (treeNode txids height (offsetAtHeight leaf.offset height))) :
  ∃ found, compound.computedLeaf height (offsetAtHeight leaf.offset (height + 1)) = .ok found ∧
    Reads found (treeNode txids (height + 1) (offsetAtHeight leaf.offset (height + 1))) := by
  rcases hOwn with ⟨own, hOwn, hReads⟩
  rcases hFrom.find_sibling hBlock hLeaf (Nat.lt_of_succ_lt hHeight) with
    ⟨sibling, hSib, hReads'⟩
  have hSome : (treeNode txids height (offsetAtHeight leaf.offset height)).isSome := by
    rw [hBlock.treeNode_isSome_iff]
    refine Nat.div_le_div_right ?_
    have hLt := (hFrom.leaf_zero hLeaf).1
    omega
  have hOwnNe : own ≠ none := by
    rintro rfl
    rw [show treeNode txids height (offsetAtHeight leaf.offset height) = none from hReads] at hSome
    cases hSome
  have hHalf : offsetAtHeight leaf.offset (height + 1) = offsetAtHeight leaf.offset height / 2 := by
    simp only [offsetAtHeight, Nat.pow_succ, ← Nat.div_div_eq_div_mul]
  refine computedLeaf_reads hBlock fun _ => ?_
  rw [hHalf]
  by_cases hEven : offsetAtHeight leaf.offset height % 2 = 0
  · have hLeft : offsetAtHeight leaf.offset height / 2 * 2 = offsetAtHeight leaf.offset height := by
      omega
    rw [siblingOf, if_pos hEven] at hSib hReads'
    rw [hLeft]
    exact ⟨own, some sibling, hOwn, hReads, hSib, hReads', by simp⟩
  · have hLeft :
        offsetAtHeight leaf.offset height / 2 * 2 = offsetAtHeight leaf.offset height - 1 := by
      omega
    have hRight :
        offsetAtHeight leaf.offset height - 1 + 1 = offsetAtHeight leaf.offset height := by
      omega
    rw [siblingOf, if_neg hEven] at hSib hReads'
    rw [hLeft, hRight]
    exact ⟨some sibling, own, hSib, hReads', hOwn, hReads, fun hNone => absurd hNone hOwnNe⟩

theorem ExtractedFrom.find_own {leaf : MerklePathLeaf} {height : Nat} (hBlock : IsBlock txids)
  (hFrom : ExtractedFrom txids requested compound) (hLeaf : leaf ∈ compound.level 0)
  (hHeight : height < compound.path.length) :
  ∃ found, compound.findOrComputeLeaf height (offsetAtHeight leaf.offset height) = .ok found ∧
    Reads found (treeNode txids height (offsetAtHeight leaf.offset height)) := by
  have hWf := hFrom.wellFormed hBlock
  have hSafe : offsetAtHeight leaf.offset height ≤ maxSafeInteger :=
    Nat.le_trans (Nat.div_le_self _ _) (hWf.safe 0 leaf hLeaf)
  cases hFind : (compound.level height).find? (fun found =>
      found.offset = offsetAtHeight leaf.offset height)
    with
  | some found =>
      rcases (find?_offset_eq_some_iff (hWf.nodup height)).mp hFind with ⟨hFound, hOff⟩
      refine ⟨_, findOrComputeLeaf_of_find? hSafe hFind, ?_⟩
      rw [← hOff]
      exact (hFrom.needed height hHeight).reads found hFound
  | none =>
      cases height with
      | zero =>
          rw [find?_eq_none] at hFind
          refine absurd ?_ (hFind leaf hLeaf)
          simp [offsetAtHeight]
      | succ height =>
          rw [findOrComputeLeaf_succ, hFind, (assertOffset_eq_ok_iff _).mpr hSafe]
          exact hFrom.computedLeaf_own hBlock hLeaf hHeight (find_own hBlock hFrom hLeaf (by omega))

theorem ExtractedFrom.working_eq (hBlock : IsBlock txids)
  (hFrom : ExtractedFrom txids requested compound) (hLeaf : leaf ∈ compound.level 0)
  (hHash : leaf.hash = some txid) :
  ∀ height ≤ compound.path.length, ∃ working, treeNode txids height
        (offsetAtHeight leaf.offset height) =
      some working ∧
    compound.workingHash leaf.offset txid height = .ok working := by
  refine @working_eq_of_reads txids compound
    { txid := txid, index := leaf.offset }
    compound.path.length hBlock ?_ ?_
  · rw [← hHash]
    exact (hFrom.leaf_zero hLeaf).2.1.symm
  · intro height hHeight _
    rcases hFrom.find_sibling hBlock hLeaf hHeight with ⟨stored, hFind, hReads⟩
    exact ⟨some stored, hFind, hReads, by simp⟩

theorem ExtractedFrom.not_singleton
  (hFrom : ExtractedFrom txids requested compound) (leaf : MerklePathLeaf) :
  compound.path ≠ [[leaf]] := by
  intro hPath
  have hLevel : compound.level 0 = [leaf] := by simp [level, hPath]
  have hLeaf : leaf ∈ compound.level 0 := by simp [hLevel]
  rcases hFrom.exists_sibling hLeaf hFrom.length_pos with ⟨stored, hStore, hOff⟩
  rw [hLevel, mem_singleton] at hStore
  rw [hStore, offsetAtHeight, Nat.pow_zero, Nat.div_one, siblingOf] at hOff
  split_ifs at hOff <;> omega

theorem ExtractedFrom.assert_eq (hFrom : ExtractedFrom txids requested compound) :
  assertSingleTransactionOffset compound.path = .ok () :=
  (assertSingleTransactionOffset_iff _).mpr
    fun leaf hPath => absurd hPath (hFrom.not_singleton leaf)

theorem ExtractedFrom.computeRoot_eq (hBlock : IsBlock txids)
  (hFrom : ExtractedFrom txids requested compound) (hLeaf : leaf ∈ compound.level 0)
  (hHash : leaf.hash = some txid) : ∃ root, MerkleTree.root merkleNode txids = some root ∧
      compound.computeRoot (some txid) = .ok root := by
  rcases hFrom.working_eq hBlock hLeaf hHash compound.path.length (Nat.le_refl _) with
    ⟨root, hNode, hWorking⟩
  refine ⟨root, ?_, ?_⟩
  · have hTop := offsetAtHeight_treeHeight hLeaf
    rw [hFrom.treeHeight_eq] at hTop
    rw [hBlock.root_eq hFrom.two, ← hFrom.length, ← hNode, hTop]
  · rw [computeRoot_eq_ok_iff hFrom.assert_eq, startOf_of_mem (hFrom.distinct hBlock) hLeaf hHash]
    refine ⟨_, rfl, ?_⟩
    rw [if_neg, hFrom.treeHeight_eq]
    · exact hWorking
    · rw [isSingleTransaction_iff]
      rintro ⟨lone, hPath, _⟩
      exact hFrom.not_singleton lone hPath

theorem ExtractedFrom.rootsAgree
  (hBlock : IsBlock txids) (hFrom : ExtractedFrom txids requested compound) :
  ∃ root, MerkleTree.root merkleNode txids = some root ∧ compound.RootsAgree root := by
  have hHash
      (leaf : MerklePathLeaf)
      (hLeaf : leaf ∈ compound.level 0) :
      ∃ txid, leaf.hash = some txid := by
    rcases hFrom.leaf_zero hLeaf with ⟨hLt, hEq, _⟩
    exact ⟨_, hEq.trans (getElem?_eq_getElem hLt)⟩
  rcases hFrom.nonempty with ⟨index, hReq⟩
  rcases (hFrom.needed 0 hFrom.length_pos).own rfl index hReq with ⟨first, hFirst, _⟩
  rcases hHash first hFirst with ⟨txid, hTxid⟩
  rcases hFrom.computeRoot_eq hBlock hFirst hTxid with ⟨root, hRoot, _⟩
  refine ⟨root, hRoot, ?_, ?_⟩
  · intro leaf hLeaf
    rcases hHash leaf hLeaf with ⟨txid, hTxid⟩
    rcases hFrom.computeRoot_eq hBlock hLeaf hTxid with ⟨other, hOther, hCompute⟩
    rw [hRoot] at hOther
    cases hOther
    rw [hTxid]
    exact hCompute
  · intro left hLeft right hRight source start hSrc hTgt height hHeight hNode hash hWorking
    rw [hFrom.treeHeight_eq] at hHeight
    rcases hHash left hLeft with ⟨_, hTxid⟩
    rcases hHash right hRight with ⟨_, hTxid'⟩
    rw [hTxid, startOf_of_mem (hFrom.distinct hBlock) hLeft hTxid] at hSrc
    rw [hTxid', startOf_of_mem (hFrom.distinct hBlock) hRight hTxid'] at hTgt
    cases hSrc
    cases hTgt
    rcases hFrom.working_eq hBlock hLeft hTxid height (Nat.le_of_lt hHeight) with ⟨own, hOwn, hEq⟩
    rcases hFrom.working_eq hBlock hRight hTxid' height (Nat.le_of_lt hHeight) with
      ⟨other, hOther, hEq'⟩
    simp only [Start.node] at hNode
    rw [← hNode, hOwn] at hOther
    cases hOther
    rw [Start.working, hEq] at hWorking
    cases hWorking
    exact hEq'

theorem checkLevels_of_forall {legalOffsetsOnly : Bool} {leaves : List MerklePathLeaf} {start : Nat}
  {levels : List (List MerklePathLeaf)}
  (hLevels : ∀ height level, levels[height]? = some level → (start + height = 0 → level ≠ []) ∧
        checkLevel (start + height) (if start + height ≠ 0 ∧ legalOffsetsOnly then
              some (legalOffsetsAt leaves (start + height))
            else none)
            [] level =
          .ok ()) :
  checkLevels legalOffsetsOnly leaves start levels = .ok () := by
  induction levels generalizing start with
  | nil => rfl
  | cons level levels ih =>
      rcases hLevels 0 level rfl with ⟨hEmpty, hCheck⟩
      rw [checkLevels, if_neg fun h => hEmpty h.2 h.1]
      refine bind_eq_ok_iff.mpr ⟨(), hCheck, ih ?_⟩
      intro height other hGet
      rw [Nat.add_assoc, Nat.add_comm 1]
      exact hLevels (height + 1) other hGet

theorem ExtractedFrom.construct_eq
  (hBlock : IsBlock txids) (hFrom : ExtractedFrom txids requested compound) :
  construct compound.blockHeight compound.path true true = .ok compound := by
  have hWf := hFrom.wellFormed hBlock
  rcases hFrom.rootsAgree hBlock with ⟨root, _, hAgree⟩
  refine (construct_eq_ok_iff _ _ _ _).mpr ⟨?_, root, hAgree⟩
  have hLow := hFrom.length_pos
  have hHigh : compound.path.length ≤ 54 := by
    have hLen := hBlock.length
    rw [hFrom.length, offsetTreeHeight_le_iff]
    unfold maxSafeInteger at hLen
    omega
  have hHead : compound.path.headD [] = compound.level 0 := by
    cases hPath : compound.path with
    | nil => simp [level, hPath]
    | cons level levels => simp [MerklePath.level, hPath]
  have hLevels : checkLevels true (compound.path.headD []) 0 compound.path = .ok () := by
    refine checkLevels_of_forall fun height leaves hGet => ?_
    have hLt : height < compound.path.length := (List.getElem?_eq_some_iff.mp hGet).choose
    have hLevel : compound.level height = leaves := by
      rw [level, getD_eq_getElem?_getD, hGet]
      rfl
    have hNeeded := hFrom.needed height hLt
    rw [Nat.zero_add, checkLevel_eq_ok_iff, ← hLevel, hHead]
    refine ⟨?_, ?_, hNeeded.nodup⟩
    · rintro rfl hNil
      rcases hFrom.nonempty with ⟨index, hReq⟩
      rcases hNeeded.own rfl index hReq with ⟨leaf, hLeaf, _⟩
      rw [hNil] at hLeaf
      cases hLeaf
    · intro leaf hLeaf
      refine ⟨hWf.safe height leaf hLeaf, by simp, ?_⟩
      intro offsets hOffsets
      split_ifs at hOffsets with hLegal
      cases hOffsets
      rcases hNeeded.beside leaf hLeaf with ⟨index, hReq, hBeside⟩
      rcases (hFrom.needed 0 hLow).own rfl index hReq with ⟨own, hOwn, hOff, _⟩
      have hPlain := (hFrom.leaf_zero hOwn).2.2.1
      rw [legalOffsetsAt, mem_reverse, mem_dedup, mem_reverse, List.mem_map]
      refine ⟨own, mem_filter.mpr ⟨hOwn, by simpa⟩, ?_⟩
      rw [hOff]
      exact (hBeside.resolve_right fun h => hLegal.1 h.1).symm
  rw [construct, checkStructure, if_neg (by omega), hLevels, ok_bind, hFrom.assert_eq]
  rfl

theorem ExtractedFrom.trimmable
  (hBlock : IsBlock txids) (hFrom : ExtractedFrom txids requested compound) :
  compound.Trimmable where
  distinct := hFrom.distinct hBlock
  beside leaf hLeaf _ := by
    rcases hFrom.exists_sibling hLeaf hFrom.length_pos with ⟨other, hOther, hOff⟩
    rw [offsetAtHeight, Nat.pow_zero, Nat.div_one] at hOff
    exact ⟨other, hOther, hOff⟩
  required leaf hLeaf _ height hHeight sibling hSib := by
    rw [hFrom.treeHeight_eq] at hHeight
    rcases hFrom.exists_sibling hLeaf hHeight with ⟨stored, hStore, hOff⟩
    exact .inl ⟨stored, hStore, hOff.trans hSib.symm⟩
  computed height leaf hLeaf hCovers := by
    rcases hCovers with ⟨under, hUnder, _, hNode⟩
    have hHeight : height + 1 < compound.path.length := by
      by_contra hHigh
      rw [level_eq_nil (Nat.not_lt.mp hHigh)] at hLeaf
      cases hLeaf
    rcases hFrom.computedLeaf_own hBlock hUnder hHeight (hFrom.find_own hBlock hUnder
          (Nat.lt_of_succ_lt hHeight)) with
      ⟨found, hFound, hReads⟩
    have hOwn := (hFrom.needed (height + 1) hHeight).reads leaf hLeaf
    have hSome : (treeNode txids (height + 1) leaf.offset).isSome := by
      rw [hBlock.treeNode_isSome_iff, ← hNode]
      refine Nat.div_le_div_right ?_
      have hLt := (hFrom.leaf_zero hUnder).1
      omega
    rw [hNode] at hFound hReads
    rcases Option.isSome_iff_exists.mp hSome with ⟨hash, hHash⟩
    rw [hHash] at hReads hOwn
    rcases hReads.exists_leaf with ⟨computed, rfl, hSame, hPlain⟩
    refine ⟨computed, hFound, ?_⟩
    simp [view, hSame, hOwn.1, hPlain, hOwn.2]

-- When Extraction Succeeds

theorem neededFrom_replicate (start count : Nat) :
  NeededFrom txids (fun _ => False) start (replicate count []) := by
  induction count generalizing start with
  | zero => trivial
  | succ count ih => exact ⟨by constructor <;> simp, ih (start + 1)⟩

theorem computeRoot_none
  {first : MerklePathLeaf} {root : JsString} (hFirst : first ∈ merklePath.level 0)
  (hHash : ∀ leaf ∈ merklePath.level 0, ∃ txid, leaf.hash = some txid ∧ txid ≠ [] ∧
        merklePath.computeRoot (some txid) = .ok root) :
  merklePath.computeRoot none = .ok root := by
  cases hFound : (merklePath.level 0).findSome? (·.presentHash) with
  | none =>
      rcases hHash first hFirst with ⟨txid, hEq, hNe, _⟩
      have hNone := findSome?_eq_none_iff.mp hFound first hFirst
      simp [MerklePathLeaf.presentHash, hEq, hNe] at hNone
  | some hash =>
      rcases exists_of_findSome?_eq_some hFound with ⟨leaf, hLeaf, hPresent⟩
      rcases hHash leaf hLeaf with ⟨txid, hEq, _, hRoot⟩
      have hSame : leaf.hash = some hash := (Option.filter_eq_some_iff.mp hPresent).1
      rw [hEq] at hSame
      cases hSame
      rw [← hRoot]
      simp [computeRoot, hFound]

/- The levels `extract` constructs the compound path from. -/
theorem HoldsBlock.exists_needed
  {ids : List JsString} (hBlock : IsBlock txids) (hHold : merklePath.HoldsBlock txids)
  (hTwo : 2 ≤ txids.length) (hIds : ∀ txid ∈ ids, txid ∈ txids) :
  ∃ (compound : MerklePath) (state : List (List MerklePathLeaf) × HashCache),
    compound.blockHeight = merklePath.blockHeight ∧
    ids.foldlM merklePath.collectExtractedLeaves (replicate merklePath.treeHeight [], []) =
      .ok state ∧
    compound.path = state.1.map sortLevel ∧
    compound.path.length = offsetTreeHeight (txids.length - 1) ∧
    ∀ height < compound.path.length, Needed txids (fun j => ∃ txid ∈ ids, txids[j]? = some txid)
        height (compound.level height) := by
  have hHeight := hHold.treeHeight_eq hTwo
  have hPos : merklePath.treeHeight ≠ 0 := by
    rw [hHeight, offsetTreeHeight, if_neg (by omega)]
    omega
  rcases @foldlM_collectExtractedLeaves txids merklePath (fun _ => False) ids
      (replicate merklePath.treeHeight [], []) hBlock
      hHold hIds (by simpa using hPos)
      (neededFrom_replicate _ _) (MemoTable.sound_nil _)
      with
    ⟨state, hFold, hLen, hNeeded⟩
  simp only [length_replicate, false_or] at hLen hNeeded
  refine
    ⟨{ blockHeight := merklePath.blockHeight
       path := state.1.map sortLevel },
      state, rfl, hFold, rfl, ?_, ?_⟩
  · rw [length_map, hLen, hHeight]
  · intro height hLt
    rw [length_map] at hLt
    have hGet := getElem?_eq_getElem hLt
    have hLevel := hNeeded.getElem? hGet
    rw [Nat.zero_add] at hLevel
    simpa [level, getD_eq_getElem?_getD, hGet] using hLevel.sortLevel

theorem not_construct_of_last
  {last : JsString} {root : JsString} (hBlock : IsBlock txids) (hTwo : 2 ≤ txids.length)
  (hOdd : txids.length % 2 ≠ 0) (hLast : txids.getLast? = some last)
  (hLen : compound.path.length = offsetTreeHeight (txids.length - 1)) (hNeeded :
    ∀ height < compound.path.length, Needed txids requested height (compound.level height))
  (hAssert : assertSingleTransactionOffset compound.path = .ok ())
  (hRoot : compound.computeRoot (some last) = .ok root) : False := by
  have hTall : 2 ≤ compound.path.length := by
    by_contra hLow
    have hLt := (offsetTreeHeight_le_iff (txids.length - 1) 1).mp (by omega)
    omega
  have hZero := hNeeded 0 (by omega)
  have hOwn
      {index : Nat}
      (hGet : txids[index]? = some last) :
      index = txids.length - 1 := by
    rw [getLast?_eq_getElem?] at hLast
    exact (getElem?_inj (List.getElem?_eq_some_iff.mp hGet).choose
      hBlock.distinct).mp (hGet.trans hLast.symm)
  rcases (computeRoot_eq_ok_iff hAssert _ _).mp hRoot with ⟨start, hStart, hWorking⟩
  have hIdx : start.index = txids.length - 1 := by
    rcases exists_leaf_of_startOf hStart with ⟨leaf, hLeaf, hHash, hOff⟩
    have hTxid : start.txid = last := by
      rw [startOf, Option.some_or, Option.bind_some, Option.map_eq_some_iff] at hStart
      rcases hStart with ⟨_, _, rfl⟩
      rfl
    have hInside := hZero.inside rfl leaf hLeaf
    have hReads := hZero.reads leaf hLeaf
    have hNode : treeNode txids 0 leaf.offset = some txids[leaf.offset] :=
      getElem?_eq_getElem hInside
    rw [hNode, Reads, hHash, hTxid] at hReads
    rw [← hOff]
    refine hOwn ?_
    rw [getElem?_eq_getElem hInside]
    exact hReads.1.symm
  have hSingle : isSingleTransaction compound.path ≠ true := by
    intro hOne
    rcases (isSingleTransaction_iff _).mp hOne with ⟨leaf, hPath, _⟩
    rw [hPath] at hTall
    exact absurd hTall (by simp)
  rw [if_neg hSingle] at hWorking
  rcases working_ok_of_le (show 1 ≤ compound.treeHeight from
        Nat.le_trans (by omega) (Nat.le_max_left _ _))
      hWorking with
    ⟨working, hFirst⟩
  rw [working_succ, bind_eq_ok_iff] at hFirst
  rcases hFirst with ⟨_, _, hFirst⟩
  rcases bind_eq_ok_iff.mp hFirst with ⟨found, hFind, hNext⟩
  cases found with
  | some leaf =>
      have hInside := hZero.inside rfl leaf (mem_of_findOrComputeLeaf_zero hFind)
      rw [(stored_or_computed hFind).1, Start.node,
        offsetAtHeight, Nat.pow_zero, Nat.div_one, hIdx, siblingOf, if_pos (by omega)] at hInside
      omega
  | none =>
      have hMany : compound.path.length ≠ 1 := by omega
      simp [nextCachedHash, hMany] at hNext

theorem ExtractedFrom.exists_trimmed
  (hBlock : IsBlock txids) (hFrom : ExtractedFrom txids requested compound) :
  ∃ trimmed root, MerkleTree.root merkleNode txids = some root ∧ compound.trim = .ok trimmed ∧
      trimmed.computeRoot none = .ok root ∧
      ∀ index txid, requested index → txids[index]? = some txid →
        (∃ leaf ∈ trimmed.level 0, leaf.hash = some txid ∧ leaf.txid = some true) ∧
          trimmed.computeRoot (some txid) = .ok root := by
  have hWf := hFrom.wellFormed hBlock
  have hTrimmable := hFrom.trimmable hBlock
  have hPath : compound.path ≠ [] := ne_nil_of_length_pos hFrom.length_pos
  have hOwn := (hFrom.needed 0 hFrom.length_pos).own rfl
  rcases hFrom.rootsAgree hBlock with ⟨root, hRoot, hAgree⟩
  rcases hFrom.nonempty with ⟨index, hReq⟩
  rcases hOwn index hReq with ⟨flagged, hFlagged, _, hFlag⟩
  rcases exists_trim hPath (hWf.nodup 0) hTrimmable.beside with ⟨trimmed, hTrim⟩
  have hTrimmed := trimmed_of_trim hWf.nodup hTrim
  have hKept
      {leaf : MerklePathLeaf}
      (hLeaf : leaf ∈ trimmed.level 0) :
      ∃ txid, leaf.hash = some txid ∧ txid ≠ [] ∧ trimmed.computeRoot (some txid) = .ok root := by
    have hMem := ((hTrimmed.zero leaf).mp hLeaf).1
    rcases hFrom.leaf_zero hMem with ⟨hLt, hHash, _⟩
    rw [getElem?_eq_getElem hLt] at hHash
    refine ⟨_, hHash, (hBlock.txid _ (getElem_mem hLt)).ne_nil, ?_⟩
    refine hTrimmed.computeRoot_eq hWf hFrom.assert_eq hTrimmable
      ⟨flagged, hFlagged, hFlag⟩ hLeaf hHash ?_
    rw [← hHash]
    exact hAgree.root leaf hMem
  refine ⟨trimmed, root, hRoot, hTrim, ?_, ?_⟩
  · exact computeRoot_none (hTrimmed.mem_zero_of_flagged hWf hTrimmable hFlagged hFlag)
      fun leaf hLeaf => hKept hLeaf
  · intro index txid hReq hGet
    rcases hOwn index hReq with ⟨leaf, hLeaf, hOff, hFlag⟩
    have hStays := hTrimmed.mem_zero_of_flagged hWf hTrimmable hLeaf hFlag
    have hHash := (hFrom.leaf_zero hLeaf).2.1
    rw [hOff, hGet] at hHash
    rcases hKept hStays with ⟨other, hOther, _, hCompute⟩
    rw [hHash] at hOther
    cases hOther
    exact ⟨⟨leaf, hStays, hHash, hFlag⟩, hCompute⟩

/-
  Extraction from a path of one level that holds a whole block succeeds, with the requested leaves
  flagged and the root kept, if and only if the block has an even number of transactions or its
  last one is not requested.
-/
theorem extract_iff_last_not_requested
  {txids ids : List JsString} {merklePath : MerklePath} (hBlock : IsBlock txids)
  (hHolds : merklePath.HoldsBlock txids) (hTwo : 2 ≤ txids.length) (hSome : ids ≠ [])
  (hIds : ∀ txid ∈ ids, txid ∈ txids) :
  (∃ extracted root, merklePath.extract ids = .ok extracted ∧
      merklePath.computeRoot none = .ok root ∧
      ∀ txid ∈ ids, (∃ leaf ∈ extracted.level 0, leaf.hash = some txid ∧ leaf.txid = some true) ∧
          extracted.computeRoot (some txid) = .ok root) ↔
    txids.length % 2 = 0 ∨ ∀ last, txids.getLast? = some last → last ∉ ids := by
  rcases hHolds.exists_needed hBlock hTwo hIds with
    ⟨compound, state, hBlockHeight, hFold, hPath, hLength, hNeeded⟩
  have hExtract :
      merklePath.extract ids = (merklePath.computeRoot none >>= fun originalRoot =>
          construct compound.blockHeight compound.path true true >>= fun compound =>
            compound.trim >>= fun compound =>
              compound.computeRoot none >>=
                fun extractedRoot =>
                  if extractedRoot ≠ originalRoot then
                    .error (.error ("Extracted path root " ++ String.ofList extractedRoot ++
                        " does not match original root " ++ String.ofList originalRoot))
                  else pure compound) := by
    have hCount : ids.length ≠ 0 := by simpa using hSome
    rw [extract, if_neg hCount]
    simp only [hFold, ok_bind, hBlockHeight, hPath]
  constructor
  · rintro ⟨extracted, root, hOk, _⟩
    by_contra hNot
    push Not at hNot
    rcases hNot with ⟨hOdd, last, hLast, hAsked⟩
    rw [hExtract] at hOk
    rcases bind_eq_ok_iff.mp hOk with ⟨_, _, hOk⟩
    rcases bind_eq_ok_iff.mp hOk with ⟨accepted, hConstruct, _⟩
    rcases structure_of_construct hConstruct with ⟨rfl, _, hAssert⟩
    rcases ((construct_eq_ok_iff _ _ _ _).mp hConstruct).2 with ⟨root', hAgree⟩
    have hPos : 0 < compound.path.length := by
      rw [hLength, offsetTreeHeight, if_neg (by omega)]
      exact Nat.succ_pos _
    have hGet : txids[txids.length - 1]? = some last := by
      rw [← List.getLast?_eq_getElem?]
      exact hLast
    rcases (hNeeded 0 hPos).own rfl _ ⟨last, hAsked, hGet⟩ with ⟨leaf, hLeaf, hOffset, _⟩
    have hReads := (hNeeded 0 hPos).reads leaf hLeaf
    have hNode : treeNode txids 0 leaf.offset = some last := by
      rw [hOffset]
      exact hGet
    rw [hNode] at hReads
    have hRoot := hAgree.root leaf hLeaf
    rw [hReads.1] at hRoot
    exact not_construct_of_last hBlock hTwo hOdd hLast hLength hNeeded hAssert hRoot
  · intro hCondition
    have hFrom : ExtractedFrom txids (fun j => ∃ txid ∈ ids, txids[j]? = some txid)
          compound := by
      refine ⟨hTwo, hLength, hNeeded, ?_, ?_⟩
      · rcases List.exists_mem_of_ne_nil _ hSome with ⟨txid, hTxid⟩
        rcases List.mem_iff_getElem?.mp (hIds txid hTxid) with ⟨index, hGet⟩
        exact ⟨index, txid, hTxid, hGet⟩
      · rintro index ⟨txid, hTxid, hGet⟩
        have hLt : index < txids.length := (List.getElem?_eq_some_iff.mp hGet).choose
        refine ⟨hLt, ?_⟩
        by_contra hOut
        unfold siblingOf at hOut
        split_ifs at hOut with hEven
        · have hEnd : index = txids.length - 1 := by omega
          rcases hCondition with hEvenLength | hNot
          · omega
          · refine hNot txid ?_ hTxid
            rw [List.getLast?_eq_getElem?, ← hEnd]
            exact hGet
        · omega
    rcases hFrom.exists_trimmed hBlock with ⟨trimmed, root, hRoot, hTrim, hNone, hEach⟩
    rcases hHolds.rootsAgree hBlock with ⟨root', hRoot', hAgree⟩
    rw [hRoot] at hRoot'
    cases hRoot'
    have hOriginal : merklePath.computeRoot none = .ok root := by
      have hOwn
          (leaf : MerklePathLeaf)
          (hLeaf : leaf ∈ merklePath.level 0) :
          ∃ txid, leaf.hash = some txid ∧ txid ≠ [] ∧ merklePath.computeRoot (some txid) =
              .ok root := by
        have hHash := (hHolds.leaf leaf hLeaf).1
        have hLt := hHolds.offset_lt hLeaf
        rw [List.getElem?_eq_getElem hLt] at hHash
        refine ⟨_, hHash, (hBlock.txid _ (List.getElem_mem hLt)).ne_nil, ?_⟩
        rw [← hHash]
        exact hAgree.root leaf hLeaf
      have hLevel : merklePath.level 0 ≠ [] := by
        intro hNil
        have hCount := hHolds.offsets.length_eq
        rw [hNil] at hCount
        simp at hCount
        omega
      rcases List.exists_mem_of_ne_nil _ hLevel with ⟨first, hFirst⟩
      exact computeRoot_none hFirst hOwn
    refine ⟨trimmed, root, ?_, hOriginal, ?_⟩
    · rw [hExtract, hOriginal, ok_bind, hFrom.construct_eq hBlock, ok_bind, hTrim, ok_bind,
        hNone, ok_bind]
      simp
    · intro txid hTxid
      rcases List.mem_iff_getElem?.mp (hIds txid hTxid) with ⟨index, hGet⟩
      exact hEach index txid ⟨txid, hTxid, hGet⟩ hGet

theorem extract_iff_last_not_requested_blockOfThree :
  (∃ extracted root, blockOfThree.extract [sampleHash 1] = .ok extracted ∧
      blockOfThree.computeRoot none = .ok root ∧
      ∀ txid ∈ [sampleHash 1], (∃ leaf ∈ extracted.level 0, leaf.hash = some txid ∧
            leaf.txid = some true) ∧
          extracted.computeRoot (some txid) = .ok root) ↔
    idsOfThree.length % 2 = 0 ∨ ∀ last, idsOfThree.getLast? = some last → last ∉ [sampleHash 1] :=
  extract_iff_last_not_requested isBlock_idsOfThree holdsBlock_blockOfThree (by decide) (by simp)
    (by
      intro txid hTxid
      rw [List.mem_singleton] at hTxid
      rw [hTxid]
      exact List.mem_cons_self)

theorem extract_last_fails :
  idsOfThree.getLast? = some (sampleHash 3) ∧
    construct blockOfThree.blockHeight blockOfThree.path true true = .ok blockOfThree ∧
    blockOfThree.extract [sampleHash 3] = .error (.error
        "Missing hash for index 2 at height 0") := by
  decide +kernel

end TsStack.MerklePath
