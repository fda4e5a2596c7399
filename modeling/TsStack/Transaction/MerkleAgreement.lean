import TsStack.Transaction.MerkleRoot

/-
  Agreement of roots decides acceptance, up to a collision
  among the byte strings an evaluation hashes.
-/

-- Hashed Bytes

namespace TsStack

def nextPair (working : JsString) (leaf : Option MerklePathLeaf) (offset : Nat) : JsString :=
  match leaf with
  | none => working ++ working
  | some leaf =>
    if leaf.duplicate = some true then working ++ working
    else if offset % 2 = 1 then leaf.hash.getD [] ++ working
    else working ++ leaf.hash.getD []

theorem nextCachedHash_eq_ok
  {working result : JsString} {leaf : Option MerklePathLeaf} {offset index height : Nat}
  {isLastOddNode : Bool}
  (hNext : nextCachedHash working leaf offset index height isLastOddNode = .ok result) :
  ∃ bytes, hexToUint8Array (nextPair working leaf offset) = .ok bytes ∧
      result = toHex (hash256 bytes.reverse).reverse := by
  have hPair
      {left right : Option JsString}
      (hHash : hashPair left right = .ok result) :
      ∃ bytes, hexToUint8Array (left.getD [] ++ right.getD []) = .ok bytes ∧
        result = toHex (hash256 bytes.reverse).reverse := by
    rcases bind_eq_ok_iff.mp hHash with ⟨bytes, hBytes, hEq⟩
    exact ⟨bytes, hBytes, (Except.ok.inj hEq).symm⟩
  cases leaf with
  | none =>
    cases isLastOddNode with
    | true => exact hPair hNext
    | false => cases hNext
  | some leaf =>
    simp only [nextCachedHash] at hNext
    simp only [nextPair]
    split_ifs at hNext ⊢
    · exact hPair hNext
    · exact hPair hNext
    · exact hPair hNext

theorem eq_of_nextPair_decode
  {left right bytes : Bytes} {leaf : Option MerklePathLeaf} {offset : Nat}
  (hLen : left.length = right.length)
  (hLeft : hexToUint8Array (nextPair (toHex left) leaf offset) = .ok bytes)
  (hRight : hexToUint8Array (nextPair (toHex right) leaf offset) = .ok bytes) : left = right := by
  have hDouble (hL : hexToUint8Array (toHex left ++ toHex left) = .ok bytes)
      (hR : hexToUint8Array (toHex right ++ toHex right) = .ok bytes) :
      left = right := by
    have hMap := map_eq_of_hexToUint8Array_eq (by simp [hLen]) hL hR
    simp only [List.map_append] at hMap
    exact toHex_eq_of_map_eq (List.append_inj_left hMap (by simp [hLen]))
  cases leaf with
  | none => exact hDouble hLeft hRight
  | some leaf =>
    simp only [nextPair] at hLeft hRight
    split_ifs at hLeft hRight
    · exact hDouble hLeft hRight
    · exact hexToUint8Array_append_left_cancel hLen hLeft hRight
    · exact hexToUint8Array_append_right_cancel hLen hLeft hRight

namespace MerklePath

variable {merklePath : MerklePath}

def IsStart (merklePath : MerklePath) (start : Start) : Prop :=
  ∃ leaf ∈ merklePath.level 0, merklePath.startOf leaf.hash = some start

def HashedAt (merklePath : MerklePath) (bytes : Bytes) : Prop :=
  ∃ start, merklePath.IsStart start ∧ ∃ height < merklePath.treeHeight, ∃ working sibling decoded,
        start.working merklePath height = .ok working ∧
          merklePath.findOrComputeLeaf height (siblingOf (start.node height)) = .ok sibling ∧
          hexToUint8Array (nextPair working sibling (siblingOf (start.node height))) = .ok decoded ∧
          bytes = decoded.reverse

def HashCollision (merklePath : MerklePath) : Prop :=
  ∃ left right, merklePath.HashedAt left ∧ merklePath.HashedAt right ∧
      left ≠ right ∧ hash256 left = hash256 right

-- Equal Roots Give Equal Working Hashes

variable {source start : Start}

theorem working_succ_eq_toHex
  {height : Nat} {hash : JsString} (hWorking : start.working merklePath (height + 1) = .ok hash) :
  ∃ bytes : Bytes, bytes.length = 32 ∧ hash = toHex bytes := by
  rw [working_succ, bind_eq_ok_iff] at hWorking
  rcases hWorking with ⟨working, _, hRest⟩
  rcases bind_eq_ok_iff.mp hRest with ⟨leaf, _, hNext⟩
  rcases nextCachedHash_eq_ok hNext with ⟨bytes, _, rfl⟩
  exact ⟨(hash256 bytes.reverse).reverse, by simp, rfl⟩

section

variable (hWellFormed : merklePath.WellFormed)
include hWellFormed

section

variable (hSrc : merklePath.IsStart source) (hStart : merklePath.IsStart start)

include hSrc hStart

theorem txid_eq_of_index_eq (hIdx : source.index = start.index) : source.txid = start.txid := by
  rcases hSrc with ⟨_, _, hSrc⟩
  rcases hStart with ⟨_, _, hStart⟩
  rcases exists_leaf_of_startOf hSrc with ⟨leaf, hLeaf, hHash, hOff⟩
  rcases exists_leaf_of_startOf hStart with ⟨other, hOther, hHash', hOff'⟩
  have hNodup := hWellFormed.nodup 0
  have hFind := (find?_offset_eq_some_iff hNodup).mpr ⟨hLeaf, hOff⟩
  have hFind' := (find?_offset_eq_some_iff hNodup).mpr ⟨hOther, hOff'.trans hIdx.symm⟩
  rw [hFind] at hFind'
  cases hFind'
  rw [hHash] at hHash'
  exact Option.some.inj hHash'

theorem working_eq_or_collision {height : Nat} {left right next : JsString}
  (hHeight : height < merklePath.treeHeight) (hNode : source.node height = start.node height)
  (hLeft : source.working merklePath height = .ok left)
  (hRight : start.working merklePath height = .ok right)
  (hNextLeft : source.working merklePath (height + 1) = .ok next)
  (hNextRight : start.working merklePath (height + 1) = .ok next) :
  left = right ∨ merklePath.HashCollision := by
  cases height with
  | zero =>
    have hIdx : source.index = start.index := by simpa [Start.node, offsetAtHeight] using hNode
    have hTxid := txid_eq_of_index_eq hWellFormed hSrc hStart hIdx
    cases hLeft
    cases hRight
    exact .inl hTxid
  | succ height =>
    rcases working_succ_eq_toHex hLeft with ⟨leftBytes, hLeftLen, rfl⟩
    rcases working_succ_eq_toHex hRight with ⟨rightBytes, hRightLen, rfl⟩
    rw [working_succ, hLeft, ok_bind, bind_eq_ok_iff] at hNextLeft
    rw [working_succ, hRight, ok_bind, bind_eq_ok_iff] at hNextRight
    rcases hNextLeft with ⟨sibling, hSib, hHashLeft⟩
    rcases hNextRight with ⟨sibling', hSib', hHashRight⟩
    have hSame := hSib'
    rw [← hNode, hSib] at hSame
    cases hSame
    rcases nextCachedHash_eq_ok hHashLeft with ⟨bytes, hDecode, rfl⟩
    rcases nextCachedHash_eq_ok hHashRight with ⟨bytes', hDecode', hEq⟩
    have hHash : hash256 bytes.reverse = hash256 bytes'.reverse :=
      List.reverse_injective (toHex_injective hEq)
    by_cases hBytes : bytes = bytes'
    · left
      subst hBytes
      rw [← hNode] at hDecode'
      rw [eq_of_nextPair_decode (hLeftLen.trans hRightLen.symm) hDecode hDecode']
    · right
      refine ⟨bytes.reverse, bytes'.reverse, ?_, ?_, ?_, hHash⟩
      · exact ⟨source, hSrc, height + 1, hHeight, _, _, _, hLeft, hSib, hDecode, rfl⟩
      · exact ⟨start, hStart, height + 1, hHeight, _, _, _, hRight, hSib', hDecode', rfl⟩
      · exact fun h => hBytes (List.reverse_injective h)

theorem sameAtNodes_or_collision {root : JsString}
  (hRootSrc : source.working merklePath merklePath.treeHeight = .ok root)
  (hRootStart : start.working merklePath merklePath.treeHeight = .ok root) :
  merklePath.SameAtNodes source start ∨
    merklePath.HashCollision := by
  by_cases hCollision : merklePath.HashCollision
  · exact .inr hCollision
  left
  have hDown
      (count : Nat) :
      ∀ height left right, height + count = merklePath.treeHeight →
        source.node height = start.node height → source.working merklePath height = .ok left →
        start.working merklePath height = .ok right →
        left = right := by
    induction count with
    | zero =>
      intro height left right hHeight _ hLeft hRight
      rw [Nat.add_zero] at hHeight
      subst hHeight
      rw [hRootSrc] at hLeft
      rw [hRootStart] at hRight
      cases hLeft
      cases hRight
      rfl
    | succ count ih =>
      intro height left right hHeight hNode hLeft hRight
      have hLe : height + 1 ≤ merklePath.treeHeight := by omega
      rcases working_ok_of_le hLe hRootSrc with ⟨nextLeft, hNextLeft⟩
      rcases working_ok_of_le hLe hRootStart with ⟨nextRight, hNextRight⟩
      have hNext := ih (height + 1) nextLeft nextRight (by omega)
        (node_eq_of_le hNode (Nat.le_succ _)) hNextLeft hNextRight
      subst hNext
      exact (working_eq_or_collision hWellFormed hSrc hStart hLe hNode hLeft hRight hNextLeft
        hNextRight).resolve_right hCollision
  intro height hHeight hNode hash hWorking
  rcases working_ok_of_le (Nat.le_of_lt hHeight) hRootStart with ⟨hash', hWorking'⟩
  rw [hDown (merklePath.treeHeight - height) height hash hash' (by omega) hNode hWorking hWorking']
  exact hWorking'

end

-- Root Agreement

theorem rootsAgree_or_collision {root : JsString}
  (hAssert : assertSingleTransactionOffset merklePath.path = .ok ())
  (hRoot : ∀ leaf ∈ merklePath.level 0, merklePath.computeRoot leaf.hash = .ok root) :
  merklePath.RootsAgree root ∨
    merklePath.HashCollision := by
  by_cases hCollision : merklePath.HashCollision
  · exact .inr hCollision
  left
  refine ⟨hRoot, ?_⟩
  intro leaf hLeaf other hOther source start hSrc hStart
  cases hSingle : isSingleTransaction merklePath.path with
  | true =>
    rcases level_eq_of_isSingleTransaction hSingle with ⟨only, hLevel⟩
    rw [hLevel, List.mem_singleton] at hLeaf hOther
    rw [hLeaf] at hSrc
    rw [hOther, hSrc] at hStart
    cases hStart
    exact fun _ _ _ _ hWorking => hWorking
  | false =>
    have hTop
        {leaf : MerklePathLeaf}
        {start : Start}
        (hLeaf : leaf ∈ merklePath.level 0)
        (hStart : merklePath.startOf leaf.hash = some start) :
        start.working merklePath merklePath.treeHeight = .ok root := by
      rcases (computeRoot_eq_ok_iff hAssert _ _).mp (hRoot leaf hLeaf) with ⟨start', hStart', hTop⟩
      rw [hStart] at hStart'
      cases hStart'
      rw [hSingle] at hTop
      exact hTop
    exact (sameAtNodes_or_collision hWellFormed ⟨leaf, hLeaf, hSrc⟩ ⟨other, hOther, hStart⟩
      (hTop hLeaf hSrc) (hTop hOther hStart)).resolve_right hCollision

end

/- What the structural checks leave to be known. -/
theorem structure_of_construct
  {blockHeight : Nat} {path : List (List MerklePathLeaf)} {legalOffsetsOnly validateRoots : Bool}
  (hConstruct : construct blockHeight path legalOffsetsOnly validateRoots = .ok merklePath) :
  merklePath = { blockHeight := blockHeight, path := path } ∧
    merklePath.WellFormed ∧ assertSingleTransactionOffset merklePath.path = .ok () := by
  rcases bind_eq_ok_iff.mp hConstruct with ⟨_, hStructure, hRest⟩
  have hEq : merklePath = { blockHeight := blockHeight, path := path } := by
    cases validateRoots with
    | false =>
      cases hRest
      rfl
    | true =>
      rcases bind_eq_ok_iff.mp hRest with ⟨_, _, hOk⟩
      cases hOk
      rfl
  subst hEq
  refine ⟨rfl, wellFormed_of_checkStructure hStructure, ?_⟩
  unfold checkStructure at hStructure
  split_ifs at hStructure
  rcases bind_eq_ok_iff.mp hStructure with ⟨_, _, hAssert⟩
  exact hAssert

theorem construct_eq_ok_iff
  (blockHeight : Nat) (path : List (List MerklePathLeaf)) (legalOffsetsOnly : Bool)
  (merklePath : MerklePath) : construct blockHeight path legalOffsetsOnly true = .ok merklePath ↔
    construct blockHeight path legalOffsetsOnly false = .ok merklePath ∧
      ∃ root, merklePath.RootsAgree root := by
  have hChecked (hStructure : construct blockHeight path legalOffsetsOnly false = .ok merklePath) :
      construct blockHeight path legalOffsetsOnly true = .ok merklePath ↔
        ∃ root, merklePath.RootsAgree root := by
    rcases structure_of_construct hStructure with ⟨rfl, hWellFormed, hAssert⟩
    rcases bind_eq_ok_iff.mp hStructure with ⟨_, hCheck, _⟩
    rw [← checkRoots_eq_ok_iff hWellFormed hAssert, construct, hCheck]
    simp only [ok_bind, if_true]
    rw [bind_eq_ok_iff]
    exact ⟨fun ⟨_, hRoots, _⟩ => hRoots, fun hRoots => ⟨(), hRoots, rfl⟩⟩
  constructor
  · intro hConstruct
    have hStructure : construct blockHeight path legalOffsetsOnly false = .ok merklePath := by
      rcases structure_of_construct hConstruct with ⟨rfl, _, _⟩
      rcases bind_eq_ok_iff.mp hConstruct with ⟨_, hCheck, _⟩
      rw [construct, hCheck]
      rfl
    exact ⟨hStructure, (hChecked hStructure).mp hConstruct⟩
  · rintro ⟨hStructure, hAgree⟩
    exact (hChecked hStructure).mpr hAgree

/-
  A path the constructor accepts with root validation gives one uncached root for every level-zero
  leaf; and a path with sound structure whose level-zero leaves all have one uncached root is
  accepted, unless its evaluations hash two different byte strings to one hash.
-/
theorem construct_iff_roots_agree
  (blockHeight : Nat) (path : List (List MerklePathLeaf)) (legalOffsetsOnly : Bool)
  (merklePath : MerklePath) :
  (construct blockHeight path legalOffsetsOnly true = .ok merklePath →
    ∃ root, ∀ leaf ∈ merklePath.level 0, merklePath.computeRoot leaf.hash = .ok root) ∧
    (construct blockHeight path legalOffsetsOnly false = .ok merklePath →
      (∃ root, ∀ leaf ∈ merklePath.level 0, merklePath.computeRoot leaf.hash = .ok root) →
      construct blockHeight path legalOffsetsOnly true = .ok merklePath ∨
        merklePath.HashCollision) := by
  constructor
  · intro hConstruct
    rcases ((construct_eq_ok_iff _ _ _ _).mp hConstruct).2 with ⟨root, hAgree⟩
    exact ⟨root, hAgree.root⟩
  · rintro hConstruct ⟨root, hRoot⟩
    rcases structure_of_construct hConstruct with ⟨_, hWellFormed, hAssert⟩
    rcases rootsAgree_or_collision hWellFormed hAssert hRoot with hAgree | hCollision
    · left
      exact (construct_eq_ok_iff _ _ _ _).mpr ⟨hConstruct, root, hAgree⟩
    · exact Or.inr hCollision

theorem construct_iff_roots_agree_coinbase :
  (∃ root, ∀ leaf ∈ (mk 7 (coinbaseLevels ['a', 'b'])).level 0,
      (mk 7 (coinbaseLevels ['a', 'b'])).computeRoot leaf.hash = .ok root) ∧
    (construct 7 (coinbaseLevels ['a', 'b']) true true = .ok (mk 7 (coinbaseLevels ['a', 'b'])) ∨
      (mk 7 (coinbaseLevels ['a', 'b'])).HashCollision) := by
  have hBoth := construct_iff_roots_agree 7 (coinbaseLevels ['a', 'b']) true
    (mk 7 (coinbaseLevels ['a', 'b']))
  have hRoots := hBoth.1 (by decide)
  exact ⟨hRoots, hBoth.2 (by decide) hRoots⟩

end MerklePath

end TsStack
