import TsStack.Transaction.MerklePath

/-
  The cached leaf finder computes the uncached leaves.
-/

-- Structure of Accepted Paths

open List

namespace TsStack

namespace MerklePath

structure WellFormed (merklePath : MerklePath) : Prop where
  safe : ∀ height, ∀ leaf ∈ merklePath.level height, leaf.offset ≤ maxSafeInteger
  nodup : ∀ height, ((merklePath.level height).map (·.offset)).Nodup

theorem assertOffset_eq_ok_iff (offset : Nat) :
  assertOffset offset = .ok () ↔ offset ≤ maxSafeInteger := by
  unfold assertOffset
  split_ifs with hSafe
  · simpa using hSafe
  · simpa using hSafe

theorem checkLevel_eq_ok_iff
  (height : Nat) (legal : Option (List Nat)) (seen : List Nat) (leaves : List MerklePathLeaf) :
  checkLevel height legal seen leaves = .ok () ↔ (∀ leaf ∈ leaves, leaf.offset ≤ maxSafeInteger ∧
        leaf.offset ∉ seen ∧ ∀ offsets, legal = some offsets → leaf.offset ∈ offsets) ∧
      (leaves.map (·.offset)).Nodup := by
  induction leaves generalizing seen with
  | nil => simp [checkLevel]
  | cons leaf leaves ih =>
    rw [checkLevel, bind_eq_ok_iff]
    constructor
    · rintro ⟨_, hAssert, hRest⟩
      have hSafe := (assertOffset_eq_ok_iff _).mp hAssert
      split_ifs at hRest with hSeen hLegal
      rcases (ih _).mp hRest with ⟨hLeaves, hNodup⟩
      have hHead : ∀ offsets, legal = some offsets → leaf.offset ∈ offsets := by
        rintro offsets rfl
        simpa using hLegal
      refine ⟨?_, ?_⟩
      · intro other hOther
        rcases mem_cons.mp hOther with rfl | hTail
        · exact ⟨hSafe, hSeen, hHead⟩
        · rcases hLeaves other hTail with ⟨hSafe', hSeen', hLegal'⟩
          exact ⟨hSafe', fun h => hSeen' (mem_cons_of_mem _ h), hLegal'⟩
      · rw [map_cons, nodup_cons]
        refine ⟨?_, hNodup⟩
        intro hMem
        rcases List.mem_map.mp hMem with ⟨other, hOther, hEq⟩
        exact (hLeaves other hOther).2.1 (hEq ▸ mem_cons_self)
    · rintro ⟨hLeaves, hNodup⟩
      rw [map_cons, nodup_cons] at hNodup
      rcases hLeaves leaf mem_cons_self with ⟨hSafe, hSeen, hLegal⟩
      refine ⟨(), (assertOffset_eq_ok_iff _).mpr hSafe, ?_⟩
      rw [if_neg hSeen, if_neg, (ih _)]
      · refine ⟨?_, hNodup.2⟩
        intro other hOther
        rcases hLeaves other (mem_cons_of_mem _ hOther) with ⟨hSafe', hSeen', hLegal'⟩
        refine ⟨hSafe', ?_, hLegal'⟩
        intro hMem
        rcases mem_cons.mp hMem with hEq | hOld
        · exact hNodup.1 (List.mem_map.mpr ⟨other, hOther, hEq⟩)
        · exact hSeen' hOld
      · cases legal with
        | none => simp
        | some offsets => simpa using hLegal offsets rfl

theorem checkLevel_of_checkLevels {legalOffsetsOnly : Bool} {leaves level : List MerklePathLeaf}
  {levels : List (List MerklePathLeaf)} {start : Nat}
  (hCheck : checkLevels legalOffsetsOnly leaves start levels = .ok ()) (hLevel : level ∈ levels) :
  ∃ height legal, checkLevel height legal [] level = .ok () := by
  induction levels generalizing start with
  | nil => cases hLevel
  | cons head levels ih =>
    rw [checkLevels] at hCheck
    by_cases hEmpty : head = [] ∧ start = 0
    · rw [if_pos hEmpty] at hCheck
      cases hCheck
    rw [if_neg hEmpty] at hCheck
    rcases bind_eq_ok_iff.mp hCheck with ⟨_, hHead, hTail⟩
    rcases mem_cons.mp hLevel with rfl | hMem
    · exact ⟨_, _, hHead⟩
    · exact ih hTail hMem

theorem wellFormed_of_checkStructure {legalOffsetsOnly : Bool} {merklePath : MerklePath}
  (hCheck : checkStructure legalOffsetsOnly merklePath.path = .ok ()) : merklePath.WellFormed := by
  unfold checkStructure at hCheck
  split_ifs at hCheck
  rcases bind_eq_ok_iff.mp hCheck with ⟨_, hLevels, _⟩
  have hLevel
      (height : Nat) :
      (∀ leaf ∈ merklePath.level height, leaf.offset ≤ maxSafeInteger) ∧
        ((merklePath.level height).map (·.offset)).Nodup := by
    unfold level
    rw [getD_eq_getElem?_getD]
    cases hGet : merklePath.path[height]? with
    | none => simp
    | some leaves =>
      rcases checkLevel_of_checkLevels hLevels (mem_of_getElem? hGet) with ⟨_, _, hCheckLevel⟩
      rcases (checkLevel_eq_ok_iff _ _ _ _).mp hCheckLevel with ⟨hLeaves, hNodup⟩
      exact ⟨fun leaf h => (hLeaves leaf h).1, hNodup⟩
  exact ⟨fun height => (hLevel height).1, fun height => (hLevel height).2⟩

end MerklePath

theorem find?_offset_eq_some_iff
  {leaves : List MerklePathLeaf} {offset : Nat} {leaf : MerklePathLeaf}
  (hNodup : (leaves.map (·.offset)).Nodup) : leaves.find? (fun l => l.offset = offset) = some leaf ↔
    leaf ∈ leaves ∧ leaf.offset = offset := by
  induction leaves with
  | nil => simp
  | cons head leaves ih =>
    rw [map_cons, nodup_cons] at hNodup
    by_cases hHead : head.offset = offset
    · rw [find?_cons_of_pos (by simpa using hHead)]
      constructor
      · intro hEq
        cases hEq
        exact ⟨mem_cons_self, hHead⟩
      · rintro ⟨hMem, hOff⟩
        rcases mem_cons.mp hMem with rfl | hTail
        · rfl
        · exact absurd (List.mem_map.mpr ⟨leaf, hTail, hOff.trans hHead.symm⟩) hNodup.1
    · rw [find?_cons_of_neg (by simpa using hHead), ih hNodup.2]
      constructor
      · rintro ⟨hMem, hOff⟩
        exact ⟨mem_cons_of_mem _ hMem, hOff⟩
      · rintro ⟨hMem, hOff⟩
        rcases mem_cons.mp hMem with rfl | hTail
        · exact absurd hOff hHead
        · exact ⟨hTail, hOff⟩

/- Finding by offset is invariant under permutation. -/
theorem find?_offset_perm
  {left right : List MerklePathLeaf} (offset : Nat) (hPerm : left.Perm right)
  (hNodup : (left.map (·.offset)).Nodup) :
  left.find? (fun l => l.offset = offset) = right.find? (fun l => l.offset = offset) := by
  have hNodup' : (right.map (·.offset)).Nodup := (hPerm.map _).nodup_iff.mp hNodup
  apply Option.ext
  intro leaf
  simp only [find?_offset_eq_some_iff hNodup, find?_offset_eq_some_iff hNodup', hPerm.mem_iff]

namespace MerklePath

variable {merklePath : MerklePath}

theorem sourceLeaf_eq_find? (hWf : merklePath.WellFormed) (height offset : Nat) :
  merklePath.sourceLeaf height offset = (merklePath.level height).find?
      (fun leaf => leaf.offset = offset) :=
  (find?_offset_perm offset (reverse_perm _).symm (hWf.nodup height)).symm

-- The Leaf Cache

def LeafCache (merklePath : MerklePath) (hashCache : HashCache) : Prop :=
  hashCache.Sound fun key leaf => merklePath.findOrComputeLeaf key.1 key.2 = .ok leaf

variable {offset : Nat}

theorem succ_double_le (hSafe : offset * 2 ≤ maxSafeInteger) : offset * 2 + 1 ≤ maxSafeInteger := by
  unfold maxSafeInteger at hSafe ⊢
  omega

variable
    {height : Nat} {hashCache : HashCache}

theorem cachedFindLeaf_of_get?
  {leaf : Option MerklePathLeaf} (hCache : merklePath.LeafCache hashCache)
  (hGet : hashCache.get? (height, offset) = some leaf) :
  merklePath.cachedFindLeaf height offset hashCache =
    (merklePath.findOrComputeLeaf height offset).map (fun leaf => (leaf, hashCache)) := by
  rw [hCache _ _ hGet]
  unfold cachedFindLeaf
  simp only [hGet]
  rfl

/- A supplied leaf is found by both finders. -/
theorem findOrComputeLeaf_of_find? {leaf : MerklePathLeaf} (hSafe : offset ≤ maxSafeInteger)
  (hFind : (merklePath.level height).find? (fun leaf => leaf.offset = offset) = some leaf) :
  merklePath.findOrComputeLeaf height offset = .ok (some leaf) := by
  unfold findOrComputeLeaf
  rw [(assertOffset_eq_ok_iff offset).mpr hSafe]
  simp only [ok_bind, hFind]
  rfl

theorem LeafCache.set {leaf : Option MerklePathLeaf} (hCache : merklePath.LeafCache hashCache)
  (hLeaf : merklePath.findOrComputeLeaf height offset = .ok leaf) :
  merklePath.LeafCache (hashCache.set (height, offset) leaf) :=
  MemoTable.Sound.set hCache hLeaf

/- The step from one height to the next for a leaf that is neither remembered nor supplied. -/
theorem cachedFindLeaf_compute
  {h : Nat} (hSafe : offset ≤ maxSafeInteger) (hCache : merklePath.LeafCache hashCache)
  (hGet : hashCache.get? (h + 1, offset) = none)
  (hSrc : merklePath.sourceLeaf (h + 1) offset = none)
  (hFind : (merklePath.level (h + 1)).find? (fun leaf => leaf.offset = offset) = none)
  (ih : ∀ {offset : Nat} {hashCache : HashCache}, offset ≤ maxSafeInteger →
      merklePath.LeafCache hashCache → ∃ hashCache', merklePath.LeafCache hashCache' ∧
        merklePath.cachedFindLeaf h offset hashCache = (merklePath.findOrComputeLeaf h offset).map
            (fun leaf => (leaf, hashCache'))) :
  ∃ hashCache', merklePath.LeafCache hashCache' ∧
    merklePath.cachedFindLeaf (h + 1) offset hashCache =
      (merklePath.findOrComputeLeaf (h + 1) offset).map (fun leaf => (leaf, hashCache')) := by
  have hAssert := (assertOffset_eq_ok_iff _).mpr hSafe
  have hUncached := findOrComputeLeaf.eq_def merklePath (h + 1) offset
  have hCached := cachedFindLeaf.eq_def merklePath (h + 1) offset hashCache
  simp only [hAssert, ok_bind, hFind] at hUncached
  simp only [hGet, hSrc] at hCached
  by_cases hDouble : isSafeInteger (offset * 2)
  · simp only [hDouble, not_true_eq_false, if_false] at hUncached hCached
    have hLeft := (isSafeInteger_iff _).mp hDouble
    rcases ih hLeft hCache with ⟨cache₀, hCache₀, hEq₀⟩
    rw [hEq₀] at hCached
    cases hLeaf₀ : merklePath.findOrComputeLeaf h (offset * 2) with
    | error e =>
      refine ⟨hashCache, hCache, ?_⟩
      rw [hCached, hUncached, hLeaf₀]
      rfl
    | ok leaf₀ =>
      rw [hLeaf₀] at hUncached hCached
      simp only [Except.map, ok_bind] at hUncached hCached
      cases hHash : leaf₀.bind (·.presentHash) with
      | none =>
        simp only [hHash] at hUncached hCached
        refine ⟨_, hCache₀.set hUncached, ?_⟩
        rw [hCached, hUncached]
        rfl
      | some hash₀ =>
        simp only [hHash] at hUncached hCached
        rcases ih (succ_double_le hLeft) hCache₀ with ⟨cache₁, hCache₁, hEq₁⟩
        rw [hEq₁] at hCached
        cases hLeaf₁ : merklePath.findOrComputeLeaf h (offset * 2 + 1) with
        | error e =>
          refine ⟨hashCache, hCache, ?_⟩
          rw [hCached, hUncached, hLeaf₁]
          rfl
        | ok leaf₁ =>
          rw [hLeaf₁] at hUncached hCached
          simp only [Except.map, ok_bind] at hUncached hCached
          cases hParent : merklePath.parentLeaf offset h (offset * 2) hash₀ leaf₁ with
          | error e =>
            refine ⟨hashCache, hCache, ?_⟩
            rw [hCached, hUncached, hParent]
            rfl
          | ok leaf =>
            rw [hParent] at hUncached hCached
            refine ⟨_, hCache₁.set hUncached, ?_⟩
            rw [hCached, hUncached]
            rfl
  · rw [if_pos hDouble] at hUncached hCached
    refine ⟨hashCache, hCache, ?_⟩
    rw [hCached, hUncached]
    rfl

theorem cachedFindLeaf_eq
  (hWf : merklePath.WellFormed) (height : Nat) (hSafe : offset ≤ maxSafeInteger)
  (hCache : merklePath.LeafCache hashCache) : ∃ hashCache', merklePath.LeafCache hashCache' ∧
    merklePath.cachedFindLeaf height offset hashCache =
      (merklePath.findOrComputeLeaf height offset).map (fun leaf => (leaf, hashCache')) := by
  induction height generalizing offset hashCache with
  | zero =>
    cases hGet : hashCache.get? (0, offset) with
    | some leaf => exact ⟨hashCache, hCache, cachedFindLeaf_of_get? hCache hGet⟩
    | none =>
      have hSrc := sourceLeaf_eq_find? hWf 0 offset
      have hAssert := (assertOffset_eq_ok_iff _).mpr hSafe
      cases hFind : (merklePath.level 0).find? (fun leaf => leaf.offset = offset) with
      | some leaf =>
        have hLeaf := findOrComputeLeaf_of_find? hSafe hFind
        refine ⟨_, hCache.set hLeaf, ?_⟩
        rw [hLeaf, cachedFindLeaf]
        simp only [hGet, hSrc, hFind]
        rfl
      | none =>
        have hLeaf : merklePath.findOrComputeLeaf 0 offset = .ok none := by
          rw [findOrComputeLeaf, hAssert]
          simp only [ok_bind, hFind]
          rfl
        refine ⟨_, hCache.set hLeaf, ?_⟩
        rw [hLeaf, cachedFindLeaf]
        simp only [hGet, hSrc, hFind]
        rfl
  | succ h ih =>
    cases hGet : hashCache.get? (h + 1, offset) with
    | some leaf => exact ⟨hashCache, hCache, cachedFindLeaf_of_get? hCache hGet⟩
    | none =>
      have hSrc := sourceLeaf_eq_find? hWf (h + 1) offset
      have hAssert := (assertOffset_eq_ok_iff _).mpr hSafe
      cases hFind : (merklePath.level (h + 1)).find? (fun leaf => leaf.offset = offset) with
      | some leaf =>
        have hLeaf := findOrComputeLeaf_of_find? hSafe hFind
        refine ⟨_, hCache.set hLeaf, ?_⟩
        rw [hLeaf, cachedFindLeaf]
        simp only [hGet, hSrc, hFind]
        rfl
      | none => exact cachedFindLeaf_compute hSafe hCache hGet (hSrc.trans hFind) hFind ih

end MerklePath

end TsStack
