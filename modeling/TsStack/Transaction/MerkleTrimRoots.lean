import TsStack.Transaction.MerkleBlock
import TsStack.Transaction.MerkleTrim

/-
  Trimming keeps the roots of the flagged transactions where
  the nodes they require are present.
-/

-- What Evaluations Read of a Leaf

open List

namespace TsStack

def view (leaf : Option MerklePathLeaf) :
  Option (Option JsString × Bool) :=
  leaf.map fun leaf => (leaf.hash, leaf.duplicate = some true)

theorem nextCachedHash_of_view
  {left right : Option MerklePathLeaf} (hView : view left = view right) (working : JsString)
  (offset index height : Nat) (isLastOddNode : Bool) :
  nextCachedHash working left offset index height isLastOddNode =
    nextCachedHash working right offset index height
      isLastOddNode := by
  cases left with
  | none =>
    cases right with
    | none => rfl
    | some right => cases hView
  | some left =>
    cases right with
    | none => cases hView
    | some right =>
      simp only [view, Option.map_some, Option.some.injEq, Prod.mk.injEq, decide_eq_decide] at hView
      simp only [nextCachedHash, hView.1, hView.2]

theorem presentHash_of_view {left right : Option MerklePathLeaf} (hView : view left = view right) :
  left.bind (·.presentHash) = right.bind (·.presentHash) := by
  cases left with
  | none =>
    cases right with
    | none => rfl
    | some right => cases hView
  | some left =>
    cases right with
    | none => cases hView
    | some right =>
      simp only [view, Option.map_some, Option.some.injEq, Prod.mk.injEq] at hView
      simp [MerklePathLeaf.presentHash, hView.1]

namespace MerklePath

def SameFound (left right : Except JsError (Option MerklePathLeaf)) :
  Prop :=
  left.map view = right.map view

theorem parentLeaf_of_view
  {merklePath other : MerklePath} {left right : Option MerklePathLeaf} {h : Nat}
  (hView : view left = view right) (hLen : other.path.length = merklePath.path.length)
  (hMax : merklePath.path.length = 1 → other.maxOffset = merklePath.maxOffset) (offset l : Nat)
  (hash0 : JsString) :
  other.parentLeaf offset h l hash0 left = merklePath.parentLeaf offset h l hash0 right := by
  have hHash : left.bind (·.hash) = right.bind (·.hash) := by
    cases left <;> cases right <;> simp_all [view]
  have hMarker : left.any (·.duplicate = some true) = right.any (·.duplicate = some true) := by
    cases left <;> cases right <;> simp_all [view]
  unfold parentLeaf
  rw [hHash, hMarker, hLen]
  by_cases hSingle : merklePath.path.length = 1
  · rw [hMax hSingle]
  · simp only [hSingle, false_and]

theorem bind_of_sameFound {α : Type} {left right : Except JsError (Option MerklePathLeaf)}
  {f g : Option MerklePathLeaf → Except JsError α} (hSame : SameFound left right)
  (hEach : ∀ a b, view a = view b → f a = g b) : (left >>= f) = (right >>= g) := by
  unfold SameFound at hSame
  cases left with
  | error e =>
    cases right with
    | error e' =>
      cases hSame
      rfl
    | ok b => cases hSame
  | ok a =>
    cases right with
    | error e' => cases hSame
    | ok b => exact hEach a b (Except.ok.inj hSame)

theorem computedLeaf_of_view {merklePath other : MerklePath} {h offset : Nat}
  (hLen : other.path.length = merklePath.path.length)
  (hMax : merklePath.path.length = 1 → other.maxOffset = merklePath.maxOffset)
  (hLeft : SameFound (other.findOrComputeLeaf h (offset * 2))
      (merklePath.findOrComputeLeaf h (offset * 2)))
  (hRight : SameFound (other.findOrComputeLeaf h (offset * 2 + 1))
      (merklePath.findOrComputeLeaf h (offset * 2 + 1))) :
  other.computedLeaf h offset = merklePath.computedLeaf h offset := by
  unfold computedLeaf
  split_ifs
  · refine bind_of_sameFound hLeft fun leaf leaf' hView => ?_
    rw [presentHash_of_view hView]
    cases leaf'.bind (·.presentHash) with
    | none => rfl
    | some hash0 =>
      exact bind_of_sameFound hRight fun _ _ hView' => parentLeaf_of_view hView' hLen hMax _ _ _
  · rfl

end MerklePath

-- Paths That Can Be Trimmed

namespace MerklePath

variable {merklePath trimmed : MerklePath}

/- A stored node is the hash of the two nodes under it. -/
def HoldsPair (merklePath : MerklePath) (h : Nat) (leaf : MerklePathLeaf) : Prop :=
  ∃ computed, merklePath.computedLeaf h leaf.offset = .ok (some computed) ∧
      view (some computed) = view (some leaf)

/-
  The nodes the flagged leaves require are present: each sibling on their way is stored, or over a
  flagged leaf, or behind the last node of a path of one level.  A leaf without flag stands beside
  its sibling, no hash is twice at level zero, and a stored node over a flagged leaf is the hash
  of the two nodes under it.
-/
structure Trimmable (merklePath : MerklePath) : Prop where
  distinct : HashesDistinct (merklePath.level 0)
  beside : ∀ leaf ∈ merklePath.level 0, leaf.txid ≠ some true →
      ∃ other ∈ merklePath.level 0, other.offset = siblingOf leaf.offset
  required : ∀ leaf ∈ merklePath.level 0, leaf.txid = some true →
      ∀ height < merklePath.treeHeight, ∀ sibling, sibling =
            siblingOf (offsetAtHeight leaf.offset height) →
          (∃ stored ∈ merklePath.level height, stored.offset = sibling) ∨
            merklePath.Covers height sibling ∨ merklePath.path.length = 1 ∧
                offsetAtHeight merklePath.maxOffset height < sibling
  computed : ∀ height, ∀ leaf ∈ merklePath.level (height + 1),
      merklePath.Covers (height + 1) leaf.offset → merklePath.HoldsPair height leaf

theorem covers_succ_iff (height offset : Nat) :
  merklePath.Covers (height + 1) (offset / 2) ↔ merklePath.Covers height offset ∨
      merklePath.Covers height (siblingOf offset) := by
  unfold Covers offsetAtHeight
  simp only [Nat.pow_succ, ← Nat.div_div_eq_div_mul]
  constructor
  · rintro ⟨leaf, hLeaf, hFlag, hHalf⟩
    rcases eq_or_siblingOf hHalf with hEq | hEq
    · exact .inl ⟨leaf, hLeaf, hFlag, hEq⟩
    · exact .inr ⟨leaf, hLeaf, hFlag, hEq⟩
  · rintro (⟨leaf, hLeaf, hFlag, hEq⟩ | ⟨leaf, hLeaf, hFlag, hEq⟩)
    · exact ⟨leaf, hLeaf, hFlag, by rw [hEq]⟩
    · exact ⟨leaf, hLeaf, hFlag, by rw [hEq, siblingOf_half]⟩

/- What is over a node is over what is under it. -/
theorem Covers.above
  {height offset : Nat} (hCovers : merklePath.Covers height offset) (count : Nat) :
  merklePath.Covers (height + count) (offsetAtHeight offset count) := by
  rcases hCovers with ⟨leaf, hLeaf, hFlag, rfl⟩
  refine ⟨leaf, hLeaf, hFlag, ?_⟩
  simp only [offsetAtHeight]
  rw [Nat.pow_add, Nat.div_div_eq_div_mul]

-- The Largest Offset

variable {leaf : MerklePathLeaf}

theorem le_maxOffset (hLeaf : leaf ∈ merklePath.level 0) : leaf.offset ≤ merklePath.maxOffset := by
  have hFold
      (leaves : List MerklePathLeaf)
      (start : Nat) :
      start ≤ leaves.foldl (fun max leaf => Nat.max max leaf.offset) start ∧
        ∀ leaf ∈ leaves, leaf.offset ≤ leaves.foldl (fun max leaf => Nat.max max leaf.offset)
          start := by
    induction leaves generalizing start with
    | nil => simp
    | cons head leaves ih =>
      rcases ih (Nat.max start head.offset) with ⟨hStart, hLeaves⟩
      refine ⟨Nat.le_trans (Nat.le_max_left _ _) hStart, ?_⟩
      intro leaf hLeaf
      rcases mem_cons.mp hLeaf with rfl | hTail
      · exact Nat.le_trans (Nat.le_max_right _ _) hStart
      · exact hLeaves leaf hTail
  exact (hFold _ 0).2 leaf hLeaf

theorem maxOffset_le {bound : Nat} (hBound : ∀ leaf ∈ merklePath.level 0, leaf.offset ≤ bound) :
  merklePath.maxOffset ≤ bound := by
  have hFold
      (leaves : List MerklePathLeaf)
      (start : Nat)
      (hStart : start ≤ bound)
      (hLeaves : ∀ leaf ∈ leaves, leaf.offset ≤ bound) :
      leaves.foldl (fun max leaf => Nat.max max leaf.offset) start ≤
        bound := by
    induction leaves generalizing start with
    | nil => exact hStart
    | cons head leaves ih =>
      exact ih _ (Nat.max_le.mpr ⟨hStart, hLeaves head mem_cons_self⟩)
        fun leaf hLeaf => hLeaves leaf (mem_cons_of_mem _ hLeaf)
  exact hFold _ 0 (Nat.zero_le _) hBound

theorem offsetTreeHeight_le_iff (offset height : Nat) :
  offsetTreeHeight offset ≤ height ↔ offset < 2 ^ height := by
  unfold offsetTreeHeight
  split_ifs with hZero
  · simp [hZero]
  · rw [Nat.succ_le_iff, Nat.log2_lt hZero]

/- At the top all leaves are under one node. -/
theorem offsetAtHeight_treeHeight (hLeaf : leaf ∈ merklePath.level 0) :
  offsetAtHeight leaf.offset merklePath.treeHeight =
    0 := by
  refine Nat.div_eq_of_lt (Nat.lt_of_le_of_lt (le_maxOffset hLeaf) ?_)
  exact (offsetTreeHeight_le_iff _ _).mp (Nat.le_max_right _ _)

theorem level_eq_nil {height : Nat} (hHeight : merklePath.path.length ≤ height) :
  merklePath.level height = [] := by
  rw [level, getD_eq_getElem?_getD, getElem?_eq_none hHeight]
  rfl

theorem Trimmable.covers_maxOffset (hTrimmable : merklePath.Trimmable)
  (hFlagged : ∃ leaf ∈ merklePath.level 0, leaf.txid = some true) {height : Nat}
  (hLow : merklePath.path.length ≤ height) (hHigh : height ≤ merklePath.treeHeight) :
  merklePath.Covers height (offsetAtHeight merklePath.maxOffset height) := by
  induction hHigh using Nat.decreasingInduction with
  | self =>
    rcases hFlagged with ⟨leaf, hLeaf, hFlag⟩
    refine ⟨leaf, hLeaf, hFlag, ?_⟩
    rw [offsetAtHeight_treeHeight hLeaf, offsetAtHeight, Nat.div_eq_of_lt]
    exact (offsetTreeHeight_le_iff _ _).mp (Nat.le_max_right _ _)
  | of_succ lower hLower ih =>
    have hAbove := ih (by omega)
    rw [offsetAtHeight, Nat.pow_succ, ← Nat.div_div_eq_div_mul] at hAbove
    rcases covers_succ_iff _ _ |>.mp hAbove with hCovers | ⟨leaf, hLeaf, hFlag, hNode⟩
    · exact hCovers
    · rcases hTrimmable.required leaf hLeaf hFlag lower hLower _ rfl with
        ⟨stored, hStore, _⟩ | hCovers | ⟨_, hBehind⟩
      · rw [level_eq_nil hLow] at hStore
        cases hStore
      · rw [hNode, siblingOf_siblingOf] at hCovers
        exact hCovers
      · rw [hNode, siblingOf_siblingOf] at hBehind
        exact absurd hBehind (Nat.lt_irrefl _)

-- Nodes After Trimming

theorem Trimmed.nodup (hTrimmed : merklePath.Trimmed trimmed) (height : Nat) :
  ((trimmed.level height).map (·.offset)).Nodup := by
  rw [List.Nodup, pairwise_map]
  exact (hTrimmed.sorted height).imp Nat.ne_of_lt

section

variable
    (hWellFormed : merklePath.WellFormed)
    (hTrimmable : merklePath.Trimmable)
    (hTrimmed : merklePath.Trimmed trimmed)

include hWellFormed hTrimmable hTrimmed

theorem Trimmed.mem_zero_iff (leaf : MerklePathLeaf) :
  leaf ∈ trimmed.level 0 ↔ leaf ∈ merklePath.level 0 ∧ merklePath.Covers 1 (leaf.offset / 2) := by
  rw [hTrimmed.zero]
  exact and_congr_right fun hLeaf => not_drops_iff (hWellFormed.nodup 0) hLeaf hTrimmable.beside

theorem Trimmed.mem_zero_of_flagged (hLeaf : leaf ∈ merklePath.level 0)
  (hFlag : leaf.txid = some true) : leaf ∈ trimmed.level 0 :=
  (hTrimmed.mem_zero_iff hWellFormed hTrimmable leaf).mpr ⟨hLeaf, leaf, hLeaf, hFlag, rfl⟩

end

theorem Trimmed.find?_eq
  (hWellFormed : merklePath.WellFormed) (hTrimmed : merklePath.Trimmed trimmed)
  {height offset : Nat}
  (hKept : ∀ leaf, leaf.offset = offset → (leaf ∈ trimmed.level height ↔
        leaf ∈ merklePath.level height)) :
  (trimmed.level height).find? (fun leaf => leaf.offset = offset) =
    (merklePath.level height).find? (fun leaf => leaf.offset = offset) := by
  refine Option.ext fun leaf => ?_
  rw [find?_offset_eq_some_iff (hTrimmed.nodup height),
    find?_offset_eq_some_iff (hWellFormed.nodup height)]
  exact and_congr_left (hKept leaf)

theorem findOrComputeLeaf_behind (hSingle : merklePath.path.length = 1) {height offset : Nat}
  (hBehind : offsetAtHeight merklePath.maxOffset height < offset) :
  merklePath.findOrComputeLeaf height offset = (assertOffset offset >>= fun _ => .ok none) := by
  induction height generalizing offset with
  | zero =>
    have hFind : (merklePath.level 0).find? (fun leaf => leaf.offset = offset) = none := by
      rw [find?_eq_none]
      intro leaf hLeaf hEq
      have hLe := le_maxOffset hLeaf
      rw [offsetAtHeight, Nat.pow_zero, Nat.div_one] at hBehind
      have hOff : leaf.offset = offset := by simpa using hEq
      omega
    rw [findOrComputeLeaf, hFind]
    rfl
  | succ height ih =>
    rw [findOrComputeLeaf_succ, level_eq_nil (by rw [hSingle]; omega)]
    refine bind_congr fun _ => ?_
    simp only [find?_nil, Option.elim_none, computedLeaf]
    split_ifs with hSafe
    · have hUnder : offsetAtHeight merklePath.maxOffset height < offset * 2 := by
        rw [offsetAtHeight, Nat.pow_succ, ← Nat.div_div_eq_div_mul] at hBehind
        rw [offsetAtHeight]
        omega
      rw [ih hUnder, (assertOffset_eq_ok_iff _).mpr ((isSafeInteger_iff _).mp hSafe)]
      rfl
    · rfl

theorem Trimmed.maxOffset_le (hTrimmed : merklePath.Trimmed trimmed) :
  trimmed.maxOffset ≤ merklePath.maxOffset :=
  MerklePath.maxOffset_le fun leaf hLeaf => le_maxOffset ((hTrimmed.zero leaf).mp hLeaf).1

section

variable (hWellFormed : merklePath.WellFormed)
include hWellFormed

section

variable
    (hTrimmable : merklePath.Trimmable)
    (hTrimmed : merklePath.Trimmed trimmed)
    (hFlagged : ∃ leaf ∈ merklePath.level 0, leaf.txid = some true)

include hTrimmable hTrimmed hFlagged

theorem Trimmed.maxOffset_eq
  (hSingle : merklePath.path.length = 1) : trimmed.maxOffset = merklePath.maxOffset := by
  refine Nat.le_antisymm hTrimmed.maxOffset_le ?_
  have hLast : ∃ leaf ∈ merklePath.level 0, leaf.offset = merklePath.maxOffset := by
    by_contra hNone
    push Not at hNone
    rcases hFlagged with ⟨leaf, hLeaf, _⟩
    have hLt
        (other : MerklePathLeaf)
        (hOther : other ∈ merklePath.level 0) :
        other.offset < merklePath.maxOffset :=
      Nat.lt_of_le_of_ne (le_maxOffset hOther) (hNone other hOther)
    have hPos := hLt leaf hLeaf
    have hLe : merklePath.maxOffset ≤ merklePath.maxOffset - 1 :=
      MerklePath.maxOffset_le fun other hOther => by
        have := hLt other hOther
        omega
    omega
  rcases hLast with ⟨leaf, hLeaf, hOff⟩
  have hCovers := @Trimmable.covers_maxOffset _ hTrimmable hFlagged 1 (by omega)
    (Nat.le_trans (by omega) (Nat.le_max_left _ _))
  rw [← hOff]
  exact le_maxOffset ((hTrimmed.mem_zero_iff hWellFormed hTrimmable leaf).mpr
    ⟨hLeaf, by rw [hOff]; exact hCovers⟩)

theorem Trimmed.treeHeight_eq :
  trimmed.treeHeight = merklePath.treeHeight := by
  have hLe : offsetTreeHeight trimmed.maxOffset ≤
        merklePath.treeHeight := by
    rw [offsetTreeHeight_le_iff]
    refine Nat.lt_of_le_of_lt hTrimmed.maxOffset_le ?_
    exact (offsetTreeHeight_le_iff _ _).mp (Nat.le_max_right _ _)
  rw [treeHeight, hTrimmed.length]
  by_cases hTall : offsetTreeHeight merklePath.maxOffset ≤ merklePath.path.length
  · have hSame : merklePath.treeHeight = merklePath.path.length := Nat.max_eq_left hTall
    rw [hSame] at hLe ⊢
    exact Nat.max_eq_left hLe
  · have hSame : merklePath.treeHeight = offsetTreeHeight merklePath.maxOffset :=
      Nat.max_eq_right (by omega)
    rw [hSame] at hLe ⊢
    cases hHeight : offsetTreeHeight merklePath.maxOffset with
    | zero => omega
    | succ height =>
      rw [hHeight] at hSame hLe hTall
      rcases @Trimmable.covers_maxOffset _ hTrimmable hFlagged height (by omega) (by omega) with
        ⟨leaf, hLeaf, hFlag, hNode⟩
      have hHigh : 2 ^ height ≤ merklePath.maxOffset := by
        have hNot := mt (offsetTreeHeight_le_iff merklePath.maxOffset height).mpr (by omega)
        exact Nat.not_lt.mp hNot
      have hPos := Nat.div_pos hHigh (Nat.two_pow_pos height)
      have hReach : 2 ^ height ≤ leaf.offset := by
        by_contra hLow
        rw [offsetAtHeight, offsetAtHeight, Nat.div_eq_of_lt (Nat.not_le.mp hLow)] at hNode
        omega
      have hLast := le_maxOffset (hTrimmed.mem_zero_of_flagged hWellFormed hTrimmable hLeaf hFlag)
      have hNot := mt (offsetTreeHeight_le_iff trimmed.maxOffset height).mp (by omega)
      omega

/-
  A node over a flagged leaf is dropped and computed from the nodes under it; a sibling on the way
  is one that stays, one over a flagged leaf, or none.
-/
theorem Trimmed.findOrComputeLeaf_view {height offset : Nat}
  (hHeight : height < merklePath.treeHeight)
  (hCovers : merklePath.Covers (height + 1) (offset / 2)) :
  SameFound (trimmed.findOrComputeLeaf height offset)
    (merklePath.findOrComputeLeaf height offset) := by
  have hMax := hTrimmed.maxOffset_eq hWellFormed hTrimmable hFlagged
  induction height generalizing offset with
  | zero =>
    have hFind :=
      @Trimmed.find?_eq _ _ hWellFormed hTrimmed 0 offset (by
        rintro leaf rfl
        rw [hTrimmed.mem_zero_iff hWellFormed hTrimmable]
        exact and_iff_left hCovers)
    rw [findOrComputeLeaf, findOrComputeLeaf, hFind]
    exact rfl
  | succ height ih =>
    rw [findOrComputeLeaf_succ, findOrComputeLeaf_succ]
    by_cases hOwn : merklePath.Covers (height + 1) offset
    · have hGone : (trimmed.level (height + 1)).find? (fun leaf => leaf.offset = offset) =
              none := by
        rw [find?_eq_none]
        intro leaf hLeaf hEq
        have hOff : leaf.offset = offset := by simpa using hEq
        rw [hTrimmed.above, hOff] at hLeaf
        exact hLeaf.2 hOwn
      have hComputed := @computedLeaf_of_view merklePath trimmed height offset hTrimmed.length hMax
        (ih (by omega) (by rwa [Nat.mul_div_cancel _ Nat.two_pos]))
        (ih (by omega) (by rwa [show (offset * 2 + 1) / 2 = offset by omega]))
      rw [hGone, Option.elim_none, hComputed]
      cases hFind : (merklePath.level (height + 1)).find? (fun leaf => leaf.offset = offset) with
      | none => exact rfl
      | some leaf =>
        rcases (find?_offset_eq_some_iff (hWellFormed.nodup _)).mp hFind with ⟨hLeaf, rfl⟩
        rcases hTrimmable.computed height leaf hLeaf hOwn with ⟨computed, hEq, hView⟩
        rw [hEq, Option.elim_some]
        unfold SameFound
        cases assertOffset leaf.offset with
        | error e => rfl
        | ok value => exact congrArg Except.ok hView
    · rcases (covers_succ_iff _ _).mp hCovers with hCovers | ⟨leaf, hLeaf, hFlag, hNode⟩
      · exact absurd hCovers hOwn
      · rcases hTrimmable.required leaf hLeaf hFlag (height + 1) hHeight offset
            (by rw [hNode, siblingOf_siblingOf]) with
          ⟨stored, hStore, hOff⟩ | hCovers | ⟨hSingle, hBehind⟩
        · have hFind :=
            @Trimmed.find?_eq _ _ hWellFormed hTrimmed (height + 1) offset (by
              rintro other rfl
              rw [hTrimmed.above]
              exact and_iff_left hOwn)
          rw [hFind]
          have hSome : (merklePath.level (height + 1)).find? (fun leaf => leaf.offset = offset) =
                some stored :=
            (find?_offset_eq_some_iff (hWellFormed.nodup _)).mpr ⟨hStore, hOff⟩
          rw [hSome]
          exact rfl
        · exact absurd hCovers hOwn
        · rw [← findOrComputeLeaf_succ,
            ← findOrComputeLeaf_succ, findOrComputeLeaf_behind hSingle hBehind,
            findOrComputeLeaf_behind (hTrimmed.length.trans hSingle)
              (by rw [hMax hSingle]; exact hBehind)]
          exact rfl

theorem Trimmed.workingHash_eq {index : Nat}
  (hCovers : merklePath.Covers 1 (index / 2)) (txid : JsString) {height : Nat}
  (hHeight : height ≤ merklePath.treeHeight) :
  trimmed.workingHash index txid height = merklePath.workingHash index txid height := by
  have hMax := hTrimmed.maxOffset_eq hWellFormed hTrimmable hFlagged
  induction height with
  | zero => rfl
  | succ height ih =>
    rw [workingHash, workingHash, ih (by omega)]
    refine bind_congr fun working => ?_
    have hOver := hCovers.above height
    have hEq : offsetAtHeight (index / 2) height = siblingOf (offsetAtHeight index height) / 2 := by
      rw [siblingOf_half, offsetAtHeight, offsetAtHeight,
        Nat.div_div_eq_div_mul, Nat.div_div_eq_div_mul, Nat.mul_comm]
    rw [Nat.add_comm 1, hEq] at hOver
    refine bind_of_sameFound (hTrimmed.findOrComputeLeaf_view hWellFormed
        hTrimmable hFlagged (by omega) hOver)
      fun left right hView => ?_
    rw [hTrimmed.length]
    by_cases hSingle : merklePath.path.length = 1
    · rw [hMax hSingle]
      exact nextCachedHash_of_view hView _ _ _ _ _
    · simp only [hSingle, decide_false, Bool.false_and]
      exact nextCachedHash_of_view hView _ _ _ _ _

end

end

-- Roots After Trimming

theorem startOf_of_mem {txid : JsString} (hDist : HashesDistinct (merklePath.level 0))
  (hLeaf : leaf ∈ merklePath.level 0) (hHash : leaf.hash = some txid) :
  merklePath.startOf (some txid) = some { txid := txid, index := leaf.offset } := by
  cases hFind : (merklePath.level 0).find? (fun leaf => leaf.hash = some txid) with
  | none =>
    rw [find?_eq_none] at hFind
    exact absurd (by simpa using hHash) (hFind leaf hLeaf)
  | some found =>
    have hFound : found.hash = some txid := by simpa using find?_some hFind
    have hSame := hDist leaf hLeaf found (mem_of_find?_eq_some hFind)
      (by rw [hHash]; rfl) (hHash.trans hFound.symm)
    simp [startOf, hFind, hSame]

theorem eq_singleton_of_forall_mem
  {leaves : List MerklePathLeaf} {leaf : MerklePathLeaf} (hNodup : (leaves.map (·.offset)).Nodup)
  (hLeaf : leaf ∈ leaves) (hOnly : ∀ other ∈ leaves, other = leaf) : leaves = [leaf] := by
  have hPerm : leaves.Perm [leaf] :=
    (perm_ext_iff_of_nodup hNodup.of_map (nodup_singleton leaf)).mpr fun other =>
      ⟨fun h => mem_singleton.mpr (hOnly other h), fun h => mem_singleton.mp h ▸ hLeaf⟩
  exact perm_singleton.mp hPerm

section

variable (hWellFormed : merklePath.WellFormed)
include hWellFormed

section

variable
    (hTrimmable : merklePath.Trimmable)
    (hTrimmed : merklePath.Trimmed trimmed)
    (hFlagged : ∃ leaf ∈ merklePath.level 0, leaf.txid = some true)

include hTrimmable hTrimmed hFlagged

theorem Trimmed.path_of_singleton
  (hOne : trimmed.path = [[leaf]]) : leaf.offset = 0 ∧ merklePath.path = [[leaf]] := by
  have hLevel : trimmed.level 0 = [leaf] := by simp [level, hOne]
  have hSingle : merklePath.path.length = 1 := by
    rw [← hTrimmed.length, hOne]
    rfl
  have hMax : merklePath.maxOffset = leaf.offset := by
    rw [← hTrimmed.maxOffset_eq hWellFormed hTrimmable hFlagged hSingle]
    simp [maxOffset, hLevel]
  have hOnly
      (other : MerklePathLeaf)
      (hOther : other ∈ merklePath.level 0)
      (hCovers : merklePath.Covers 1 (other.offset / 2)) :
      other = leaf := by
    have hKept := (hTrimmed.mem_zero_iff hWellFormed hTrimmable other).mpr ⟨hOther, hCovers⟩
    rwa [hLevel, mem_singleton] at hKept
  rcases hFlagged with ⟨flagged, hMem, hFlag⟩
  have hSame := hOnly flagged hMem ⟨flagged, hMem, hFlag, rfl⟩
  subst hSame
  have hZero : flagged.offset = 0 := by
    by_contra hPos
    have hTall := mt (offsetTreeHeight_le_iff merklePath.maxOffset 0).mp (by omega)
    have hTop : merklePath.treeHeight = offsetTreeHeight merklePath.maxOffset := by
      rw [treeHeight, hSingle]
      exact Nat.max_eq_right (by omega)
    cases hHeight : offsetTreeHeight merklePath.maxOffset with
    | zero => omega
    | succ height =>
      have hLow : 2 ^ height ≤ flagged.offset := by
        have hNot := mt (offsetTreeHeight_le_iff merklePath.maxOffset height).mpr (by omega)
        omega
      have hHigh : flagged.offset < 2 ^ (height + 1) := by
        rw [← hMax]
        exact (offsetTreeHeight_le_iff _ _).mp (Nat.le_of_eq hHeight)
      have hNode : offsetAtHeight flagged.offset height = 1 := by
        rw [Nat.pow_succ] at hHigh
        exact Nat.div_eq_of_lt_le (by omega) (by omega)
      rcases hTrimmable.required flagged hMem hFlag height (by omega) 0 (by rw [hNode]; rfl) with
        ⟨stored, hStore, hOff⟩ | ⟨other, hOther, hFlag', hNode'⟩ | ⟨_, hBehind⟩
      · cases height with
        | zero =>
          have hEq :=
            hOnly stored hStore ⟨flagged, hMem, hFlag, by
              rw [hOff, offsetAtHeight]
              omega⟩
          rw [hEq] at hOff
          exact hPos hOff
        | succ height =>
          rw [level_eq_nil (by omega)] at hStore
          cases hStore
      · rw [hOnly other hOther ⟨other, hOther, hFlag', rfl⟩, hNode] at hNode'
        cases hNode'
      · exact absurd hBehind (Nat.not_lt_zero _)
  refine ⟨hZero, ?_⟩
  rcases length_eq_one_iff.mp hSingle with ⟨leaves, hPath⟩
  have hLeaves : merklePath.level 0 = leaves := by simp [level, hPath]
  rw [hPath, ← hLeaves, eq_singleton_of_forall_mem (hWellFormed.nodup 0) hMem]
  intro other hOther
  refine inj_on_of_nodup_map (hWellFormed.nodup 0) hOther hMem ?_
  have hLe := le_maxOffset hOther
  show other.offset = flagged.offset
  omega

theorem Trimmed.singleton_of_path
  (hOne : merklePath.path = [[leaf]]) : trimmed.path = [[leaf]] := by
  have hLevel : merklePath.level 0 = [leaf] := by simp [level, hOne]
  have hLen : trimmed.path.length = 1 := by
    rw [hTrimmed.length, hOne]
    rfl
  rcases length_eq_one_iff.mp hLen with ⟨leaves, hPath⟩
  have hLeaves : trimmed.level 0 = leaves := by simp [level, hPath]
  rcases hFlagged with ⟨flagged, hMem, hFlag⟩
  have hKept := hTrimmed.mem_zero_of_flagged hWellFormed hTrimmable hMem hFlag
  have hSame : flagged = leaf := by rwa [hLevel, mem_singleton] at hMem
  rw [hPath, ← hLeaves, eq_singleton_of_forall_mem (hTrimmed.nodup 0) (hSame ▸ hKept)]
  intro other hOther
  rw [hTrimmed.zero, hLevel, mem_singleton] at hOther
  exact hOther.1

end

theorem Trimmed.computeRoot_eq {txid root : JsString}
  (hAssert : assertSingleTransactionOffset merklePath.path = .ok ())
  (hTrimmable : merklePath.Trimmable) (hTrimmed : merklePath.Trimmed trimmed)
  (hFlagged : ∃ leaf ∈ merklePath.level 0, leaf.txid = some true) (hLeaf : leaf ∈ trimmed.level 0)
  (hHash : leaf.hash = some txid) (hRoot : merklePath.computeRoot (some txid) = .ok root) :
  trimmed.computeRoot (some txid) = .ok root := by
  have hAssert' : assertSingleTransactionOffset trimmed.path = .ok () := by
    rw [assertSingleTransactionOffset_iff]
    exact fun lone hOne => (hTrimmed.path_of_singleton hWellFormed hTrimmable hFlagged hOne).1
  have hSingle : isSingleTransaction trimmed.path = isSingleTransaction merklePath.path := by
    rw [Bool.eq_iff_iff, isSingleTransaction_iff, isSingleTransaction_iff]
    exact exists_congr fun lone =>
      and_congr_left fun _ =>
        ⟨fun h => (hTrimmed.path_of_singleton hWellFormed hTrimmable hFlagged h).2,
          hTrimmed.singleton_of_path hWellFormed hTrimmable hFlagged⟩
  rcases (hTrimmed.mem_zero_iff hWellFormed hTrimmable leaf).mp hLeaf with ⟨hMem, hCovers⟩
  have hDist : HashesDistinct (trimmed.level 0) :=
    fun left hLeft right hRight =>
      hTrimmable.distinct left ((hTrimmed.zero left).mp hLeft).1 right
        ((hTrimmed.zero right).mp hRight).1
  rw [computeRoot_eq_ok_iff hAssert, startOf_of_mem hTrimmable.distinct hMem hHash] at hRoot
  rw [computeRoot_eq_ok_iff hAssert', startOf_of_mem hDist hLeaf hHash, hSingle,
    hTrimmed.treeHeight_eq hWellFormed hTrimmable hFlagged]
  rcases hRoot with ⟨start, hStart, hRoot⟩
  refine ⟨start, hStart, ?_⟩
  cases hStart
  rw [hTrimmed.workingHash_eq hWellFormed hTrimmable hFlagged hCovers txid (Nat.le_refl _)]
  exact hRoot

end

/- The text of thirty-two equal bytes. -/
def sampleHash (byte : UInt8) : JsString :=
  toHex (List.replicate 32 byte)

end MerklePath

end TsStack
