import Mathlib.Data.List.Dedup
import Mathlib.Data.List.Sort
import TsStack.Transaction.MerkleAgreement

/-
  Sorting the levels of a Merkle path by offset.
-/

-- Sorting a Path

open List Option

namespace TsStack

/- A search with at most one match ignores the order. -/
theorem find?_perm_of_unique
  {α : Type} {left right : List α} {p : α → Bool} (hPerm : left.Perm right)
  (hUnique : ∀ a ∈ left, ∀ b ∈ left, p a = true → p b = true → a = b) :
  left.find? p = right.find? p := by
  cases hLeft : left.find? p with
  | none =>
    symm
    rw [find?_eq_none] at hLeft ⊢
    exact fun a ha => hLeft a (hPerm.mem_iff.mpr ha)
  | some a =>
    have haMem := mem_of_find?_eq_some hLeft
    have haP := find?_some hLeft
    cases hRight : right.find? p with
    | none =>
      rw [find?_eq_none] at hRight
      exact absurd haP (hRight a (hPerm.mem_iff.mp haMem))
    | some b =>
      have hbMem := mem_of_find?_eq_some hRight
      rw [hUnique a haMem b (hPerm.mem_iff.mpr hbMem) haP (find?_some hRight)]

/- The order `fromReader` sorts a level by. -/
abbrev offsetLe (a b : MerklePathLeaf) : Prop :=
  a.offset ≤ b.offset

namespace MerklePath

/- A level sorted by offset, as `Array.sort` leaves it. -/
def sortLevel (leaves : List MerklePathLeaf) : List MerklePathLeaf :=
  leaves.insertionSort offsetLe

variable (leaves : List MerklePathLeaf)

theorem sortLevel_perm : (sortLevel leaves).Perm leaves :=
  perm_insertionSort offsetLe leaves

@[simp] theorem sortLevel_sortLevel : sortLevel (sortLevel leaves) = sortLevel leaves :=
  (pairwise_insertionSort offsetLe leaves).insertionSort_eq

@[simp] theorem mem_sortLevel (leaf : MerklePathLeaf) : leaf ∈ sortLevel leaves ↔ leaf ∈ leaves :=
  (sortLevel_perm leaves).mem_iff

theorem sortLevel_eq_singleton_iff (leaf : MerklePathLeaf) :
  sortLevel leaves = [leaf] ↔ leaves = [leaf] := by
  constructor
  · intro hSorted
    have hPerm := (sortLevel_perm leaves).symm
    rw [hSorted] at hPerm
    exact perm_singleton.mp hPerm
  · rintro rfl
    rfl

def sorted (merklePath : MerklePath) : MerklePath :=
  { merklePath with path := merklePath.path.map sortLevel }

-- Evaluations of a Sorted Path

variable {merklePath : MerklePath}

@[simp] theorem level_sorted (merklePath : MerklePath) (height : Nat) :
  merklePath.sorted.level height = sortLevel (merklePath.level height) := by
  simp only [level, sorted, getD_eq_getElem?_getD, getElem?_map]
  cases merklePath.path[height]? <;> rfl

@[simp] theorem length_path_sorted (merklePath : MerklePath) : merklePath.sorted.path.length =
    merklePath.path.length := by
  simp [sorted]

@[simp] theorem maxOffset_sorted (merklePath : MerklePath) :
  merklePath.sorted.maxOffset = merklePath.maxOffset := by
  unfold maxOffset
  rw [level_sorted]
  apply List.Perm.foldl_eq' (sortLevel_perm _)
  intro a _ b _ start
  simp only [Nat.max_def]
  split_ifs <;> omega

@[simp] theorem treeHeight_sorted (merklePath : MerklePath) : merklePath.sorted.treeHeight =
    merklePath.treeHeight := by
  simp [treeHeight]

theorem findOrComputeLeaf_sorted (hWf : merklePath.WellFormed) (height offset : Nat) :
  merklePath.sorted.findOrComputeLeaf height offset =
    merklePath.findOrComputeLeaf height offset := by
  have hFind
      (height offset : Nat) :
      (sortLevel (merklePath.level height)).find? (fun leaf => leaf.offset = offset) =
        (merklePath.level height).find? (fun leaf => leaf.offset = offset) :=
    (find?_offset_perm offset (sortLevel_perm _).symm (hWf.nodup height)).symm
  have hParent : merklePath.sorted.parentLeaf =
        merklePath.parentLeaf := by
    unfold parentLeaf
    simp
  induction height generalizing offset with
  | zero => rw [findOrComputeLeaf, findOrComputeLeaf, level_sorted, hFind]
  | succ height ih =>
    rw [findOrComputeLeaf.eq_def, findOrComputeLeaf.eq_def merklePath]
    simp only [level_sorted, hFind, ih, hParent]

theorem workingHash_sorted
  (hWf : merklePath.WellFormed) (index : Nat) (txid : JsString) (height : Nat) :
  merklePath.sorted.workingHash index txid height = merklePath.workingHash index txid height := by
  induction height with
  | zero => rfl
  | succ height ih =>
    simp only [workingHash, ih, length_path_sorted, maxOffset_sorted,
      findOrComputeLeaf_sorted hWf]

theorem path_sorted_eq_singleton_iff (merklePath : MerklePath) (leaf : MerklePathLeaf) :
  merklePath.sorted.path = [[leaf]] ↔ merklePath.path = [[leaf]] := by
  simp only [sorted, map_eq_singleton_iff, sortLevel_eq_singleton_iff]
  constructor
  · rintro ⟨leaves, hPath, rfl⟩
    exact hPath
  · intro hPath
    exact ⟨[leaf], hPath, rfl⟩

theorem isSingleTransaction_iff (path : List (List MerklePathLeaf)) :
  isSingleTransaction path = true ↔ ∃ leaf, path = [[leaf]] ∧ leaf.offset = 0 := by
  unfold isSingleTransaction
  split
  · simp
  · rename_i hOther
    simp only [Bool.false_eq_true, false_iff]
    rintro ⟨leaf, hPath, _⟩
    exact hOther leaf hPath

theorem assertSingleTransactionOffset_iff (path : List (List MerklePathLeaf)) :
  assertSingleTransactionOffset path = .ok () ↔ ∀ leaf, path = [[leaf]] → leaf.offset = 0 := by
  unfold assertSingleTransactionOffset
  split
  · rename_i leaf
    by_cases hOff : leaf.offset = 0
    · simp [hOff]
    · simp [hOff]
  · rename_i hOther
    simp only [true_iff]
    exact fun leaf hPath => (hOther leaf hPath).elim

@[simp] theorem isSingleTransaction_sorted (merklePath : MerklePath) :
  isSingleTransaction merklePath.sorted.path = isSingleTransaction merklePath.path := by
  rw [Bool.eq_iff_iff, isSingleTransaction_iff, isSingleTransaction_iff]
  simp only [path_sorted_eq_singleton_iff]

theorem assertSingleTransactionOffset_sorted (merklePath : MerklePath) :
  assertSingleTransactionOffset merklePath.sorted.path = .ok () ↔
    assertSingleTransactionOffset merklePath.path = .ok () := by
  simp only [assertSingleTransactionOffset_iff, path_sorted_eq_singleton_iff]

-- Structure of a Sorted Path

theorem mem_legalOffsetsAt_sortLevel (height offset : Nat) :
  offset ∈ legalOffsetsAt (sortLevel leaves) height ↔ offset ∈ legalOffsetsAt leaves height := by
  simp only [legalOffsetsAt, mem_reverse, mem_dedup, List.mem_map, mem_filter,
    mem_sortLevel]

theorem checkLevel_sortLevel
  {height : Nat} {legal legal' : Option (List Nat)} {leaves : List MerklePathLeaf}
  (hLegal : ∀ offset, (∀ offsets, legal = some offsets → offset ∈ offsets) →
      ∀ offsets, legal' = some offsets → offset ∈ offsets)
  (hCheck : checkLevel height legal [] leaves = .ok ()) :
  checkLevel height legal' [] (sortLevel leaves) = .ok () := by
  rw [checkLevel_eq_ok_iff] at hCheck ⊢
  refine ⟨?_, ?_⟩
  · intro leaf hLeaf
    rcases hCheck.1 leaf ((mem_sortLevel _ _).mp hLeaf) with ⟨hSafe, hSeen, hOff⟩
    exact ⟨hSafe, hSeen, hLegal leaf.offset hOff⟩
  · exact (((sortLevel_perm leaves).map _).nodup_iff).mpr hCheck.2

variable {legalOffsetsOnly : Bool}

theorem checkLevels_sorted
  {leaves : List MerklePathLeaf} {height : Nat} {levels : List (List MerklePathLeaf)}
  (hCheck : checkLevels legalOffsetsOnly leaves height levels = .ok ()) :
  checkLevels legalOffsetsOnly (sortLevel leaves) height (levels.map sortLevel) = .ok () := by
  induction levels generalizing height with
  | nil => rfl
  | cons head levels ih =>
    rw [checkLevels] at hCheck
    by_cases hEmpty : head = [] ∧ height = 0
    · rw [if_pos hEmpty] at hCheck
      cases hCheck
    rw [if_neg hEmpty] at hCheck
    rcases bind_eq_ok_iff.mp hCheck with ⟨_, hHead, hTail⟩
    have hNotEmpty : ¬(sortLevel head = [] ∧ height = 0) := by
      rintro ⟨hNil, hZero⟩
      have hPerm := (sortLevel_perm head).symm
      rw [hNil] at hPerm
      exact hEmpty ⟨perm_nil.mp hPerm, hZero⟩
    rw [map_cons, checkLevels, if_neg hNotEmpty]
    refine bind_eq_ok_iff.mpr ⟨(), checkLevel_sortLevel ?_ hHead, ih hTail⟩
    intro offset hOff offsets hOffsets
    split_ifs at hOff hOffsets with hLegal
    · cases hOffsets
      rw [mem_legalOffsetsAt_sortLevel]
      exact hOff _ rfl

theorem checkStructure_sorted (hCheck : checkStructure legalOffsetsOnly merklePath.path = .ok ()) :
  checkStructure legalOffsetsOnly merklePath.sorted.path = .ok () := by
  unfold checkStructure at hCheck ⊢
  rw [length_path_sorted]
  split_ifs at hCheck ⊢ with hLen
  rcases bind_eq_ok_iff.mp hCheck with ⟨_, hLevels, hAssert⟩
  have hHead : merklePath.sorted.path.headD [] = sortLevel (merklePath.path.headD []) := by
    simp only [sorted]
    cases merklePath.path <;> rfl
  rw [hHead]
  exact bind_eq_ok_iff.mpr ⟨(), checkLevels_sorted hLevels,
    (assertSingleTransactionOffset_sorted _).mpr hAssert⟩

-- Acceptance of a Sorted Path

def HashesDistinct (leaves : List MerklePathLeaf) : Prop :=
  ∀ leaf ∈ leaves, ∀ other ∈ leaves, leaf.hash.isSome → leaf.hash = other.hash → leaf = other

theorem startOf_some_sorted (hDist : HashesDistinct (merklePath.level 0)) (hash : JsString) :
  merklePath.sorted.startOf (some hash) = merklePath.startOf (some hash) := by
  have hFind : (sortLevel (merklePath.level 0)).find? (fun leaf => leaf.hash = some hash) =
        (merklePath.level 0).find? (fun leaf => leaf.hash = some hash) := by
    apply find?_perm_of_unique (sortLevel_perm _)
    intro a ha b hb haHash hbHash
    simp only [decide_eq_true_eq] at haHash hbHash
    refine hDist a ?_ b ?_ (by simp [haHash]) (haHash.trans hbHash.symm)
    · exact (mem_sortLevel _ _).mp ha
    · exact (mem_sortLevel _ _).mp hb
  simp [startOf, hFind]

variable
    {leaf : MerklePathLeaf} {start : Start}

theorem startOf_sorted
  (hDist : HashesDistinct (merklePath.level 0)) (hLeaf : leaf ∈ merklePath.level 0)
  (hStart : merklePath.sorted.startOf leaf.hash = some start) :
  ∃ other ∈ merklePath.level 0, merklePath.startOf other.hash = some start := by
  cases hHash : leaf.hash with
  | some hash =>
    rw [hHash, startOf_some_sorted hDist] at hStart
    exact ⟨leaf, hLeaf, by rw [hHash]; exact hStart⟩
  | none =>
    rw [hHash] at hStart
    rcases bind_eq_some_iff.mp hStart with ⟨hash, hFirst, _⟩
    rw [none_or] at hFirst
    rcases exists_of_findSome?_eq_some hFirst with ⟨other, hOther, hPresent⟩
    rw [level_sorted, mem_sortLevel] at hOther
    have hOtherHash : other.hash = some hash := (filter_eq_some_iff.mp hPresent).1
    refine ⟨other, hOther, ?_⟩
    rw [hOtherHash, ← startOf_some_sorted hDist]
    unfold startOf at hStart ⊢
    rw [none_or, hFirst] at hStart
    exact hStart

theorem exists_startOf_hash
  {hash : JsString} (hLeaf : leaf ∈ merklePath.level 0) (hHash : leaf.hash = some hash) :
  ∃ start, merklePath.startOf (some hash) = some start := by
  cases hFind : (merklePath.level 0).find? (fun leaf => leaf.hash = some hash) with
  | none =>
    rw [find?_eq_none] at hFind
    exact absurd (by simpa using hHash) (hFind leaf hLeaf)
  | some found => exact ⟨{ txid := hash, index := found.offset }, by simp [startOf, hFind]⟩

theorem exists_startOf_sorted (hDist : HashesDistinct (merklePath.level 0)) {txid : Option JsString}
  (hStart : merklePath.startOf txid = some start) :
  ∃ start', merklePath.sorted.startOf txid = some start' := by
  cases txid with
  | some hash =>
    rw [startOf_some_sorted hDist]
    exact ⟨start, hStart⟩
  | none =>
    rcases bind_eq_some_iff.mp hStart with ⟨hash, hFirst, _⟩
    rw [none_or] at hFirst
    rcases exists_of_findSome?_eq_some hFirst with ⟨leaf, hLeaf, hPresent⟩
    have hSorted : leaf ∈ merklePath.sorted.level 0 := by
      rw [level_sorted, mem_sortLevel]
      exact hLeaf
    cases hFirst' : (merklePath.sorted.level 0).findSome? (·.presentHash) with
    | none =>
      rw [findSome?_eq_none_iff] at hFirst'
      rw [hFirst' leaf hSorted] at hPresent
      cases hPresent
    | some hash' =>
      rcases exists_of_findSome?_eq_some hFirst' with ⟨other, hOther, hPresent'⟩
      rcases exists_startOf_hash hOther (filter_eq_some_iff.mp hPresent').1 with
        ⟨start', hStart'⟩
      refine ⟨start', ?_⟩
      unfold startOf at hStart' ⊢
      rw [none_or, hFirst']
      rw [some_or] at hStart'
      exact hStart'

/- The order of level zero does not affect the roots. -/
def Sortable (merklePath : MerklePath) : Prop :=
  sortLevel (merklePath.level 0) = merklePath.level 0 ∨ HashesDistinct (merklePath.level 0)

theorem Sortable.starts (hSortable : merklePath.Sortable) (hLeaf : leaf ∈ merklePath.level 0)
  (hStart : merklePath.sorted.startOf leaf.hash = some start) :
  ∃ other ∈ merklePath.level 0, merklePath.startOf other.hash = some start := by
  rcases hSortable with hSorted | hDist
  · refine ⟨leaf, hLeaf, ?_⟩
    unfold startOf at hStart ⊢
    rw [level_sorted, hSorted] at hStart
    exact hStart
  · exact startOf_sorted hDist hLeaf hStart

theorem Sortable.exists_start (hSortable : merklePath.Sortable) {txid : Option JsString}
  (hStart : merklePath.startOf txid = some start) :
  ∃ start', merklePath.sorted.startOf txid = some start' := by
  rcases hSortable with hSorted | hDist
  · refine ⟨start, ?_⟩
    unfold startOf at hStart ⊢
    rw [level_sorted, hSorted]
    exact hStart
  · exact exists_startOf_sorted hDist hStart

theorem rootsAgree_sorted {root : JsString} (hWf : merklePath.WellFormed)
  (hAssert : assertSingleTransactionOffset merklePath.path = .ok ())
  (hSortable : merklePath.Sortable) (hAgree : merklePath.RootsAgree root) :
  merklePath.sorted.RootsAgree root := by
  have hAssert' := (assertSingleTransactionOffset_sorted merklePath).mpr hAssert
  have hWorking
      (start : Start)
      (height : Nat) :
      start.working merklePath.sorted height = start.working merklePath height :=
    workingHash_sorted hWf _ _ _
  refine ⟨?_, ?_⟩
  · intro leaf hLeaf
    rw [level_sorted, mem_sortLevel] at hLeaf
    rcases (computeRoot_eq_ok_iff hAssert _ _).mp (hAgree.root leaf hLeaf) with ⟨start, hStart, _⟩
    rcases hSortable.exists_start hStart with ⟨start', hStart'⟩
    rcases hSortable.starts hLeaf hStart' with ⟨other, hOther, hOtherStart⟩
    rcases (computeRoot_eq_ok_iff hAssert _ _).mp (hAgree.root other hOther) with
      ⟨start'', hEq, hRoot⟩
    rw [hOtherStart] at hEq
    cases hEq
    refine (computeRoot_eq_ok_iff hAssert' _ _).mpr ⟨start', hStart', ?_⟩
    rw [isSingleTransaction_sorted, treeHeight_sorted, workingHash_sorted hWf]
    exact hRoot
  · intro leaf hLeaf other hOther source start hSrc hStart
    rw [level_sorted, mem_sortLevel] at hLeaf hOther
    rcases hSortable.starts hLeaf hSrc with ⟨leaf', hLeaf', hSrc'⟩
    rcases hSortable.starts hOther hStart with ⟨other', hOther', hStart'⟩
    intro height hHeight hNode hash hHash
    rw [treeHeight_sorted] at hHeight
    rw [hWorking] at hHash ⊢
    exact hAgree.nodes leaf' hLeaf' other' hOther' source start
      hSrc' hStart' height hHeight hNode hash hHash

theorem construct_sorted
  {blockHeight : Nat} {path : List (List MerklePathLeaf)} {validateRoots : Bool}
  (hConstruct : construct blockHeight path legalOffsetsOnly validateRoots = .ok merklePath)
  (hSortable : merklePath.Sortable) :
  construct blockHeight (path.map sortLevel) legalOffsetsOnly validateRoots =
    .ok merklePath.sorted := by
  rcases structure_of_construct hConstruct with ⟨rfl, hWf, hAssert⟩
  rcases bind_eq_ok_iff.mp hConstruct with ⟨_, hCheck, _⟩
  have hUnchecked : construct blockHeight (path.map sortLevel) legalOffsetsOnly false =
        .ok (sorted (mk blockHeight path)) := by
    have hSorted : checkStructure legalOffsetsOnly (sorted (mk blockHeight path)).path = .ok () :=
      checkStructure_sorted hCheck
    simp only [sorted] at hSorted
    rw [construct, hSorted]
    rfl
  cases validateRoots with
  | false => exact hUnchecked
  | true =>
    rcases ((construct_eq_ok_iff _ _ _ _).mp hConstruct).2 with ⟨root, hAgree⟩
    exact (construct_eq_ok_iff _ _ _ _).mpr ⟨hUnchecked, root,
      rootsAgree_sorted hWf hAssert hSortable hAgree⟩

end MerklePath

end TsStack
