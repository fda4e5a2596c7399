import TsStack.Transaction.MerklePathCombine

/-
  What trimming leaves of a Merkle path.
-/

-- Offsets Pushed and Dropped

open List

namespace TsStack.MerklePath

theorem mem_pushIfNew (v offset : Nat) (a : List Nat) :
  offset ∈ pushIfNew v a ↔ offset ∈ a ∨ offset = v := by
  unfold pushIfNew
  split_ifs with hLast
  · constructor
    · exact .inl
    · rintro (hMem | rfl)
      · exact hMem
      · exact mem_of_getLast? hLast
  · simp

theorem mem_nextComputedOffsets (cos : List Nat) (v : Nat) :
  v ∈ nextComputedOffsets cos ↔ ∃ o ∈ cos, offsetAtHeight o 1 = v := by
  have hFold
      (ncos : List Nat) :
      v ∈ cos.foldl (fun ncos o => pushIfNew (offsetAtHeight o 1) ncos) ncos ↔
        v ∈ ncos ∨ ∃ o ∈ cos, offsetAtHeight o 1 = v := by
    induction cos generalizing ncos with
    | nil => simp
    | cons o cos ih =>
      rw [foldl_cons, ih, mem_pushIfNew]
      rw [eq_comm, or_assoc]
      simp only [mem_cons, exists_eq_or_imp]
  unfold nextComputedOffsets
  simpa using hFold []

theorem mem_iterate_nextComputedOffsets (cos : List Nat) (height v : Nat) :
  v ∈ nextComputedOffsets^[height] cos ↔ ∃ o ∈ cos, offsetAtHeight o height = v := by
  induction height generalizing v with
  | zero => simp [offsetAtHeight]
  | succ height ih =>
    rw [Function.iterate_succ_apply', mem_nextComputedOffsets]
    simp only [ih, offsetAtHeight, Nat.pow_succ,
      ← Nat.div_div_eq_div_mul, Nat.pow_zero, Nat.one_mul]
    constructor
    · rintro ⟨_, ⟨o, hMem, rfl⟩, hEq⟩
      exact ⟨o, hMem, hEq⟩
    · rintro ⟨o, hMem, hEq⟩
      exact ⟨_, ⟨o, hMem, rfl⟩, hEq⟩

variable {level : List MerklePathLeaf}

theorem mem_dropOffsetsFromLevel
  (hNodup : (level.map (·.offset)).Nodup) (dropOffsets : List Nat) (leaf : MerklePathLeaf) :
  leaf ∈ dropOffsetsFromLevel dropOffsets level ↔ leaf ∈ level ∧ leaf.offset ∉ dropOffsets := by
  induction dropOffsets with
  | nil => simp [dropOffsetsFromLevel]
  | cons offset dropOffsets ih =>
    have hSub : ((dropOffsetsFromLevel dropOffsets level).map (·.offset)).Nodup :=
      ((dropOffsetsFromLevel_sublist _ _).map _).nodup hNodup
    have hErase
        (leaves : List MerklePathLeaf)
        (hLeaves : (leaves.map (·.offset)).Nodup) :
        leaf ∈ leaves.eraseP (fun n => n.offset = offset) ↔
          leaf ∈ leaves ∧ leaf.offset ≠ offset := by
      induction leaves with
      | nil => simp
      | cons head leaves ih =>
        rw [map_cons, nodup_cons] at hLeaves
        by_cases hHead : head.offset = offset
        · rw [eraseP_cons_of_pos (by simpa)]
          constructor
          · intro hMem
            refine ⟨mem_cons_of_mem _ hMem, ?_⟩
            rintro hEq
            refine hLeaves.1 (List.mem_map.mpr ⟨leaf, hMem, hEq.trans hHead.symm⟩)
          · rintro ⟨hMem, hNe⟩
            rcases mem_cons.mp hMem with rfl | hTail
            · exact absurd hHead hNe
            · exact hTail
        · rw [eraseP_cons_of_neg (by simpa), mem_cons, ih hLeaves.2, mem_cons]
          constructor
          · rintro (rfl | ⟨hMem, hNe⟩)
            · exact ⟨.inl rfl, hHead⟩
            · exact ⟨.inr hMem, hNe⟩
          · rintro ⟨rfl | hMem, hNe⟩
            · exact .inl rfl
            · exact .inr ⟨hMem, hNe⟩
    have hStep := hErase (dropOffsetsFromLevel dropOffsets level) hSub
    simp only [dropOffsetsFromLevel, foldr_cons] at hStep ih ⊢
    rw [hStep, ih, mem_cons, not_or]
    tauto

-- The Pass over Level Zero

/- Two leaves without flag, the second taken for a peer. -/
def DropsBy (level : List MerklePathLeaf) (entry : MerklePathLeaf × Nat) (offset : Nat) : Prop :=
  entry.1.txid ≠ some true ∧ ∃ peer, peerAt level entry.1 entry.2 = some peer ∧
      peer.txid ≠ some true ∧ peer.offset = offset

theorem trimLeaf_mem {offsets result : List Nat × List Nat} {entry : MerklePathLeaf × Nat}
  (hTrim : trimLeaf level offsets entry = .ok result) (v : Nat) :
  (v ∈ result.1 ↔ v ∈ offsets.1 ∨ entry.1.txid = some true ∧
      offsetAtHeight entry.1.offset 1 = v) ∧
    (v ∈ result.2 ↔ v ∈ offsets.2 ∨ DropsBy level entry v) := by
  unfold trimLeaf at hTrim
  simp only at hTrim
  unfold DropsBy
  split_ifs at hTrim with hFlag
  · cases hTrim
    simp [mem_pushIfNew, hFlag, eq_comm]
  · cases hPeer : peerAt level entry.1 entry.2 with
    | none => simp [hPeer] at hTrim
    | some peer =>
      simp only [hPeer] at hTrim
      split_ifs at hTrim with hPeerFlag
      · cases hTrim
        simp [hFlag, hPeerFlag]
      · cases hTrim
        simp [mem_pushIfNew, hFlag, hPeerFlag, eq_comm]

theorem foldlM_trimLeaf_mem
  {entries : List (MerklePathLeaf × Nat)} {offsets result : List Nat × List Nat}
  (hTrim : entries.foldlM (trimLeaf level) offsets = .ok result) (v : Nat) :
  (v ∈ result.1 ↔ v ∈ offsets.1 ∨ ∃ entry ∈ entries, entry.1.txid = some true ∧
        offsetAtHeight entry.1.offset 1 = v) ∧
    (v ∈ result.2 ↔ v ∈ offsets.2 ∨ ∃ entry ∈ entries, DropsBy level entry v) := by
  induction entries generalizing offsets with
  | nil =>
    cases hTrim
    simp
  | cons entry entries ih =>
    rw [foldlM_cons, bind_eq_ok_iff] at hTrim
    rcases hTrim with ⟨next, hNext, hRest⟩
    rcases trimLeaf_mem hNext v with ⟨hFirst, hSecond⟩
    rcases ih hRest with ⟨hFirst', hSecond'⟩
    rw [hFirst', hSecond', hFirst, hSecond]
    simp only [mem_cons, exists_eq_or_imp, or_assoc, and_self]

theorem foldlM_trimLeaf_ok {entries : List (MerklePathLeaf × Nat)} (offsets : List Nat × List Nat)
  (hPeers : ∀ entry ∈ entries, entry.1.txid ≠ some true → (peerAt level entry.1 entry.2).isSome) :
  ∃ result, entries.foldlM (trimLeaf level) offsets = .ok result := by
  induction entries generalizing offsets with
  | nil => exact ⟨offsets, rfl⟩
  | cons entry entries ih =>
    have hStep : ∃ next, trimLeaf level offsets entry = .ok next := by
      unfold trimLeaf
      by_cases hFlag : entry.1.txid = some true
      · exact ⟨_, by simp only [if_pos hFlag]; rfl⟩
      · rcases Option.isSome_iff_exists.mp (hPeers entry mem_cons_self hFlag) with
          ⟨peer, hPeer⟩
        simp only [if_neg hFlag, hPeer]
        split_ifs
        · exact ⟨_, rfl⟩
        · exact ⟨_, rfl⟩
    rcases hStep with ⟨next, hNext⟩
    rw [foldlM_cons, hNext]
    exact ih next fun other hOther => hPeers other (mem_cons_of_mem _ hOther)

-- Trimmed Paths

variable {merklePath trimmed : MerklePath}

def Covers (merklePath : MerklePath) (height offset : Nat) : Prop :=
  ∃ leaf ∈ merklePath.level 0, leaf.txid = some true ∧ offsetAtHeight leaf.offset height = offset

def Drops (merklePath : MerklePath) (offset : Nat) : Prop :=
  ∃ entry ∈ (sortLevel (merklePath.level 0)).zipIdx,
    DropsBy (sortLevel (merklePath.level 0)) entry offset

structure Trimmed (merklePath trimmed : MerklePath) : Prop where
  blockHeight : trimmed.blockHeight = merklePath.blockHeight
  length : trimmed.path.length = merklePath.path.length
  zero : ∀ leaf, leaf ∈ trimmed.level 0 ↔ leaf ∈ merklePath.level 0 ∧ ¬merklePath.Drops leaf.offset
  above : ∀ height leaf, leaf ∈ trimmed.level (height + 1) ↔
      leaf ∈ merklePath.level (height + 1) ∧ ¬merklePath.Covers (height + 1) leaf.offset
  sorted : ∀ height, (trimmed.level height).Pairwise fun a b => a.offset < b.offset

theorem trimLevels_eq_mapIdx (computedOffsets : List Nat) (levels : List (List MerklePathLeaf)) :
  trimLevels computedOffsets levels = levels.mapIdx fun height level =>
      dropOffsetsFromLevel (nextComputedOffsets^[height] computedOffsets)
        level := by
  induction levels generalizing computedOffsets with
  | nil => rfl
  | cons level levels ih =>
    rw [trimLevels, ih, mapIdx_cons]
    rfl

theorem level_succ_trimLevels (blockHeight height : Nat) (level head : List MerklePathLeaf)
  (levels : List (List MerklePathLeaf)) (computedOffsets : List Nat) : (mk blockHeight (head ::
    trimLevels computedOffsets (levels.map sortLevel))).level (height + 1) =
    dropOffsetsFromLevel (nextComputedOffsets^[height] computedOffsets)
      (sortLevel ((mk blockHeight (level :: levels)).level (height + 1))) := by
  have hNil
      (drops : List Nat) :
      dropOffsetsFromLevel drops (sortLevel []) = [] :=
    sublist_nil.mp (dropOffsetsFromLevel_sublist drops (sortLevel []))
  simp only [MerklePath.level, trimLevels_eq_mapIdx,
    getD_eq_getElem?_getD, getElem?_cons_succ, getElem?_mapIdx, getElem?_map]
  cases levels[height]? with
  | none => exact (hNil _).symm
  | some leaves => rfl

theorem pairwise_lt_sortLevel
  {leaves : List MerklePathLeaf} (hNodup : (leaves.map (·.offset)).Nodup) :
  (sortLevel leaves).Pairwise fun a b => a.offset < b.offset := by
  have hSorted : (sortLevel leaves).Pairwise offsetLe := pairwise_insertionSort offsetLe leaves
  have hDist := ((sortLevel_perm leaves).map (·.offset)).nodup_iff.mpr hNodup
  rw [List.Nodup, pairwise_map] at hDist
  exact (hSorted.and hDist).imp fun h => Nat.lt_of_le_of_ne h.1 h.2

theorem trimmed_of_trim (hNodup : ∀ height, ((merklePath.level height).map (·.offset)).Nodup)
  (hTrim : merklePath.trim = .ok trimmed) : merklePath.Trimmed trimmed := by
  have hSortedNodup
      (height : Nat) :
      ((sortLevel (merklePath.level height)).map (·.offset)).Nodup :=
    ((sortLevel_perm _).map _).nodup_iff.mpr (hNodup height)
  have hSub
      {drops : List Nat}
      (height : Nat) :
      (dropOffsetsFromLevel drops (sortLevel (merklePath.level height))).Pairwise
        fun a b => a.offset < b.offset :=
    (pairwise_lt_sortLevel (hNodup height)).sublist (dropOffsetsFromLevel_sublist _ _)
  rcases merklePath with ⟨blockHeight, path⟩
  cases path with
  | nil => simp [trim] at hTrim
  | cons level levels =>
    simp only [trim, map_cons] at hTrim
    rcases bind_eq_ok_iff.mp hTrim with ⟨⟨computedOffsets, dropOffsets⟩, hFold, hRes⟩
    cases hRes
    have hPass := foldlM_trimLeaf_mem hFold
    have hComputed
        (v : Nat) :
        v ∈ computedOffsets ↔ Covers ⟨blockHeight, level :: levels⟩ 1 v := by
      rw [(hPass v).1]
      simp only [not_mem_nil, false_or]
      constructor
      · rintro ⟨entry, hEntry, hFlag, hEq⟩
        exact ⟨entry.1, (mem_sortLevel _ _).mp (mem_of_getElem?
              (mem_zipIdx_iff_getElem?.mp hEntry)),
          hFlag, hEq⟩
      · rintro ⟨leaf, hLeaf, hFlag, hEq⟩
        rcases mem_iff_getElem?.mp ((mem_sortLevel _ _).mpr hLeaf) with ⟨index, hGet⟩
        exact ⟨(leaf, index), mem_zipIdx_iff_getElem?.mpr hGet, hFlag, hEq⟩
    refine ⟨rfl, ?_, ?_, ?_, ?_⟩
    · simp [trimLevels_eq_mapIdx]
    · intro leaf
      refine (mem_dropOffsetsFromLevel (hSortedNodup 0) dropOffsets leaf).trans ?_
      rw [mem_sortLevel, (hPass leaf.offset).2]
      simp [Drops, level_zero_cons]
    · intro height leaf
      rw [level_succ_trimLevels blockHeight height level,
        mem_dropOffsetsFromLevel (hSortedNodup (height + 1)),
        mem_sortLevel, mem_iterate_nextComputedOffsets]
      simp only [hComputed, Covers, level_zero_cons, offsetAtHeight]
      have hSame
          (offset : Nat) :
          (∃ o, (∃ leaf ∈ level, leaf.txid = some true ∧ leaf.offset / 2 ^ 1 = o) ∧
              o / 2 ^ height = offset) ↔
            ∃ leaf ∈ level, leaf.txid = some true ∧ leaf.offset / 2 ^ (height + 1) = offset := by
        simp only [Nat.pow_succ', ← Nat.div_div_eq_div_mul, Nat.pow_zero, Nat.mul_one]
        constructor
        · rintro ⟨_, ⟨other, hOther, hFlag, rfl⟩, hEq⟩
          exact ⟨other, hOther, hFlag, hEq⟩
        · rintro ⟨other, hOther, hFlag, hEq⟩
          exact ⟨_, ⟨other, hOther, hFlag, rfl⟩, hEq⟩
      rw [hSame]
    · intro height
      cases height with
      | zero => exact hSub 0
      | succ height =>
        rw [level_succ_trimLevels blockHeight height level]
        exact hSub (height + 1)

-- Peers and Siblings

theorem peerAt_of_sibling {n other : MerklePathLeaf} {index : Nat}
  (hSorted : level.Pairwise fun a b => a.offset < b.offset) (hGet : level[index]? = some n)
  (hOther : other ∈ level) (hSib : other.offset = siblingOf n.offset) :
  peerAt level n index = some other := by
  rcases mem_iff_getElem?.mp hOther with ⟨place, hPlace⟩
  have hLt
      {i j : Nat}
      {a b : MerklePathLeaf}
      (hi : level[i]? = some a)
      (hj : level[j]? = some b)
      (hij : i < j) :
      a.offset < b.offset := by
    rcases List.getElem?_eq_some_iff.mp hi with ⟨hI, rfl⟩
    rcases List.getElem?_eq_some_iff.mp hj with ⟨hJ, rfl⟩
    exact pairwise_iff_getElem.mp hSorted i j hI hJ hij
  have hBetween
      (i : Nat)
      (hi : i < level.length) :
      level[i]? = some level[i] :=
    getElem?_eq_getElem hi
  have hBound := (List.getElem?_eq_some_iff.mp hGet).choose
  have hBound' := (List.getElem?_eq_some_iff.mp hPlace).choose
  unfold siblingOf at hSib
  unfold peerAt
  by_cases hEven : n.offset % 2 = 0
  · rw [if_pos hEven] at hSib
    rw [if_neg (by omega)]
    have hOrder : index < place := by
      rcases Nat.lt_trichotomy index place with h | rfl | h
      · exact h
      · rw [hGet] at hPlace
        cases hPlace
        omega
      · have := hLt hPlace hGet h
        omega
    have hNext : place = index + 1 := by
      by_contra hNe
      have hLeft := hLt hGet (hBetween (index + 1) (by omega)) (Nat.lt_succ_self index)
      have hRight := hLt (hBetween (index + 1) (by omega)) hPlace (by omega)
      omega
    rw [← hNext, hPlace]
  · rw [if_neg hEven] at hSib
    rw [if_pos (by omega)]
    have hOrder : place < index := by
      rcases Nat.lt_trichotomy place index with h | rfl | h
      · exact h
      · rw [hGet] at hPlace
        cases hPlace
        omega
      · have := hLt hGet hPlace h
        omega
    have hNext : place = index - 1 := by
      by_contra hNe
      have hLeft := hLt hPlace (hBetween (index - 1) (by omega)) (by omega)
      have hRight := hLt (hBetween (index - 1) (by omega)) hGet (by omega)
      omega
    rw [if_neg (by omega), ← hNext, hPlace]

theorem exists_trim
  (hPath : merklePath.path ≠ []) (hNodup : ((merklePath.level 0).map (·.offset)).Nodup)
  (hBeside : ∀ leaf ∈ merklePath.level 0, leaf.txid ≠ some true →
      ∃ other ∈ merklePath.level 0, other.offset = siblingOf leaf.offset) :
  ∃ trimmed, merklePath.trim = .ok trimmed := by
  rcases merklePath with ⟨blockHeight, path⟩
  cases path with
  | nil => exact absurd rfl hPath
  | cons level levels =>
    have hFold : ∃ result, (sortLevel level).zipIdx.foldlM (trimLeaf (sortLevel level)) ([], []) =
            .ok result := by
      refine foldlM_trimLeaf_ok _ ?_
      intro entry hEntry hFlag
      have hGet := mem_zipIdx_iff_getElem?.mp hEntry
      rcases hBeside entry.1 ((mem_sortLevel _ _).mp (mem_of_getElem? hGet)) hFlag with
        ⟨other, hOther, hSib⟩
      have hPeer := peerAt_of_sibling (pairwise_lt_sortLevel hNodup)
        hGet ((mem_sortLevel _ _).mpr hOther) hSib
      rw [level_zero_cons] at hPeer
      rw [hPeer]
      rfl
    rcases hFold with ⟨result, hRes⟩
    simp only [trim, map_cons, hRes, ok_bind]
    exact ⟨_, rfl⟩

@[simp] theorem siblingOf_siblingOf (offset : Nat) : siblingOf (siblingOf offset) = offset := by
  unfold siblingOf
  split_ifs <;> omega

/- The parents of two siblings are one node. -/
theorem siblingOf_half (offset : Nat) : siblingOf offset / 2 = offset / 2 := by
  unfold siblingOf
  split_ifs <;> omega

/- Two nodes under one parent are equal or siblings. -/
theorem eq_or_siblingOf {left right : Nat} (hHalf : left / 2 = right / 2) :
  left = right ∨ left = siblingOf right := by
  unfold siblingOf
  split_ifs <;> omega

theorem not_drops_iff {leaf : MerklePathLeaf} (hNodup : ((merklePath.level 0).map (·.offset)).Nodup)
  (hLeaf : leaf ∈ merklePath.level 0) (hSiblings : ∀ n ∈ merklePath.level 0, n.txid ≠ some true →
      ∃ other ∈ merklePath.level 0, other.offset = siblingOf n.offset) :
  ¬merklePath.Drops leaf.offset ↔ merklePath.Covers 1 (leaf.offset / 2) := by
  have hUnique
      {a b : MerklePathLeaf}
      (ha : a ∈ merklePath.level 0)
      (hb : b ∈ merklePath.level 0)
      (hOff : a.offset = b.offset) :
      a = b :=
    inj_on_of_nodup_map hNodup ha hb hOff
  constructor
  · intro hKept
    by_contra hCovers
    have hFlag : leaf.txid ≠ some true := fun hFlag => hCovers ⟨leaf, hLeaf, hFlag, rfl⟩
    rcases hSiblings leaf hLeaf hFlag with ⟨other, hOther, hSib⟩
    have hOtherFlag : other.txid ≠ some true := by
      intro hFlag
      refine hCovers ⟨other, hOther, hFlag, ?_⟩
      rw [hSib]
      exact siblingOf_half _
    rcases mem_iff_getElem?.mp ((mem_sortLevel _ _).mpr hOther) with ⟨index, hGet⟩
    refine hKept ⟨(other, index), mem_zipIdx_iff_getElem?.mpr hGet, hOtherFlag,
      leaf, ?_, hFlag, rfl⟩
    refine peerAt_of_sibling (pairwise_lt_sortLevel hNodup) hGet ((mem_sortLevel _ _).mpr hLeaf) ?_
    rw [hSib, siblingOf_siblingOf]
  · rintro ⟨flagged, hFlagged, hFlag, hHalf⟩
      ⟨⟨n, index⟩, hEntry, hPlain, peer, hPeer, hUnflagged, hOff⟩
    have hGet := mem_zipIdx_iff_getElem?.mp hEntry
    have hMem := (mem_sortLevel _ _).mp (mem_of_getElem? hGet)
    rcases hSiblings n hMem hPlain with ⟨other, hOther, hSib⟩
    rw [peerAt_of_sibling (pairwise_lt_sortLevel hNodup)
      hGet ((mem_sortLevel _ _).mpr hOther) hSib] at hPeer
    cases hPeer
    have hSame := hUnique hOther hLeaf hOff
    subst hSame
    rcases eq_or_siblingOf hHalf with hEq | hEq
    · exact hUnflagged (hUnique hFlagged hLeaf hEq ▸ hFlag)
    · refine hPlain (hUnique hFlagged hMem ?_ ▸ hFlag)
      rw [hEq, hSib, siblingOf_siblingOf]

end TsStack.MerklePath
