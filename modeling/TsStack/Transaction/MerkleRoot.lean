import TsStack.Transaction.MerkleFind

/-
  The constructor's cached root check accepts a path exactly
  when the uncached roots of its leaves agree node by node.
-/

-- Starts of an Evaluation

open List

namespace TsStack

open MemoTable

namespace MerklePath

structure Start where
  txid : JsString
  index : Nat
deriving DecidableEq, Repr

def startOf (merklePath : MerklePath) (txid : Option JsString) : Option Start :=
  let txid := txid.or ((merklePath.level 0).findSome? (·.presentHash))
  txid.bind fun txid =>
    ((merklePath.level 0).find? (fun leaf => leaf.hash = some txid)).map
        fun leaf => { txid := txid, index := leaf.offset }

variable {merklePath : MerklePath}

variable {start : Start}

theorem exists_leaf_of_startOf {txid : Option JsString}
  (hStart : merklePath.startOf txid = some start) :
  ∃ leaf ∈ merklePath.level 0, leaf.hash = some start.txid ∧ leaf.offset = start.index := by
  unfold startOf at hStart
  rcases Option.bind_eq_some_iff.mp hStart with ⟨txid, _, hFound⟩
  rcases Option.map_eq_some_iff.mp hFound with ⟨leaf, hFind, hEq⟩
  cases hEq
  exact ⟨leaf, mem_of_find?_eq_some hFind, by simpa using find?_some hFind, rfl⟩

section

variable (hSingle : assertSingleTransactionOffset merklePath.path = .ok ())
include hSingle

/-
  What both evaluators do first: choose the txid, look up
  its index and treat a block of one transaction apart.
-/
theorem evaluation_eq_ok_iff {α : Type} (txid : Option JsString)
  (missing : JsError) (single : JsString → α) (loop : Nat → JsString → Except JsError α)
  (result : α) : (do
    let txid ←
      match txid with
      | some txid => pure txid
      | none =>
        match (merklePath.level 0).findSome? (·.presentHash) with
        | some hash => pure hash
        | none => .error missing
    let index ← merklePath.indexOf txid
    assertSingleTransactionOffset merklePath.path
    if isSingleTransaction merklePath.path then return single txid
    else
      loop index txid : Except JsError α) =
      .ok result ↔
    ∃ start, merklePath.startOf txid = some start ∧
      (if isSingleTransaction merklePath.path then .ok (single start.txid)
      else
        loop start.index start.txid) =
        .ok result := by
  have hWith
      (txid : JsString) :
      (do
        let index ← merklePath.indexOf txid
        assertSingleTransactionOffset merklePath.path
        if isSingleTransaction merklePath.path then return single txid
        else
          loop index txid : Except JsError α) =
          .ok result ↔
        ∃ start, ((merklePath.level 0).find? (fun leaf => leaf.hash = some txid)).map (fun leaf =>
                ({ txid := txid
                   index := leaf.offset } : Start)) =
            some start ∧
          (if isSingleTransaction merklePath.path then .ok (single start.txid)
          else
            loop start.index start.txid) =
            .ok result := by
    unfold indexOf
    cases (merklePath.level 0).find? (fun leaf => leaf.hash = some txid) with
    | none => simp
    | some leaf => simp [hSingle]
  unfold startOf
  cases txid with
  | some txid => simpa using hWith txid
  | none =>
    cases (merklePath.level 0).findSome? (·.presentHash) with
    | none => simp
    | some hash => simpa using hWith hash

theorem computeRoot_eq_ok_iff (txid : Option JsString) (root : JsString) :
  merklePath.computeRoot txid = .ok root ↔ ∃ start, merklePath.startOf txid = some start ∧
      (if isSingleTransaction merklePath.path then .ok start.txid
      else
        merklePath.workingHash start.index start.txid merklePath.treeHeight) =
        .ok root :=
  evaluation_eq_ok_iff hSingle txid _ id _ root

theorem computeRootCached_eq_ok_iff
  (txid : Option JsString) (hashCache : HashCache) (nodeHashCache : NodeHashCache)
  (result : JsString × HashCache × NodeHashCache) :
  merklePath.computeRootCached txid hashCache nodeHashCache = .ok result ↔
    ∃ start, merklePath.startOf txid = some start ∧
      (if isSingleTransaction merklePath.path then .ok (start.txid, hashCache, nodeHashCache)
      else
        merklePath.cachedRootLoop start.index merklePath.treeHeight 0 start.txid hashCache
          nodeHashCache) =
        .ok result :=
  evaluation_eq_ok_iff hSingle txid _ (fun txid => (txid, hashCache, nodeHashCache))
    (fun index txid =>
      merklePath.cachedRootLoop index merklePath.treeHeight 0 txid hashCache nodeHashCache)
    result

end

-- Working Hashes at Shared Nodes

namespace Start

def node (start : Start) (height : Nat) : Nat :=
  offsetAtHeight start.index height

def working (merklePath : MerklePath) (start : Start) (height : Nat) : Except JsError JsString :=
  merklePath.workingHash start.index start.txid height

end Start

variable {height higher : Nat}

/- Evaluations at one node stay at common nodes. -/
theorem node_eq_of_le
  {other : Start} (hNode : start.node height = other.node height) (hLe : height ≤ higher) :
  start.node higher = other.node higher := by
  rcases Nat.exists_eq_add_of_le hLe with ⟨count, rfl⟩
  simp only [Start.node, offsetAtHeight] at hNode ⊢
  rw [Nat.pow_add, ← Nat.div_div_eq_div_mul, hNode, Nat.div_div_eq_div_mul]

variable {result : JsString}

theorem nextCachedHash_index
  {working : JsString} {leaf : Option MerklePathLeaf} {offset index : Nat} {isLastOddNode : Bool}
  (other : Nat)
  (hNext : nextCachedHash working leaf offset index height isLastOddNode = .ok result) :
  nextCachedHash working leaf offset other height isLastOddNode = .ok result := by
  cases leaf with
  | none =>
    cases isLastOddNode with
    | true => exact hNext
    | false => cases hNext
  | some leaf => exact hNext

theorem working_succ (merklePath : MerklePath) (start : Start) (height : Nat) :
  start.working merklePath (height + 1) = (do
    let working ← start.working merklePath height
    let leaf ← merklePath.findOrComputeLeaf height (siblingOf (start.node height))
    nextCachedHash working leaf (siblingOf (start.node height)) start.index height
      (merklePath.path.length = 1 && start.node height =
          offsetAtHeight merklePath.maxOffset height)) :=
  rfl

variable {hash : JsString}

/- Evaluations that meet at a hash go on alike. -/
theorem working_eq_of_le {other : Start} (hNode : start.node height = other.node height)
  (hStart : start.working merklePath height = .ok hash)
  (hOther : other.working merklePath height = .ok hash) (hLe : height ≤ higher)
  (hRes : other.working merklePath higher = .ok result) :
  start.working merklePath higher = .ok result := by
  induction hLe generalizing result with
  | refl =>
    rw [hOther] at hRes
    cases hRes
    exact hStart
  | step hLe ih =>
    rw [working_succ, bind_eq_ok_iff] at hRes
    rcases hRes with ⟨working, hWorking, hRest⟩
    rcases bind_eq_ok_iff.mp hRest with ⟨leaf, hLeaf, hNext⟩
    rw [working_succ, ih hWorking, node_eq_of_le hNode hLe, ok_bind, hLeaf]
    exact nextCachedHash_index _ hNext

theorem working_ok_of_le (hLe : height ≤ higher)
  (hRes : start.working merklePath higher = .ok result) :
  ∃ hash, start.working merklePath height = .ok hash := by
  induction hLe generalizing result with
  | refl => exact ⟨result, hRes⟩
  | step hLe ih =>
    rw [working_succ, bind_eq_ok_iff] at hRes
    rcases hRes with ⟨working, hWorking, _⟩
    exact ih hWorking

-- The Cache of Node Hashes

variable {merklePath : MerklePath} {done : List Start} {root : Option JsString} {start : Start}
variable {nodeHashCache : NodeHashCache}

/-
  The cache after the evaluations in `done`: it holds their working hashes, and their common root.
-/
structure NodeInvariant (merklePath : MerklePath) (done : List Start) (root : Option JsString)
  (nodeHashCache : NodeHashCache) : Prop where
  sound : ∀ height node hash, height < merklePath.treeHeight →
      nodeHashCache.get? (height, node) = some hash →
      ∃ start ∈ done, start.node height = node ∧ start.working merklePath height = .ok hash
  complete : ∀ start ∈ done, ∀ height < merklePath.treeHeight, ∃ hash,
        start.working merklePath height = .ok hash ∧
          nodeHashCache.get? (height, start.node height) = some hash
  roots : ∀ start ∈ done, ∃ hash, root = some hash ∧
      start.working merklePath merklePath.treeHeight = .ok hash
  entry : nodeHashCache.get? (merklePath.treeHeight, 0) = root

structure NodeProgress
  (merklePath : MerklePath) (done : List Start) (root : Option JsString) (start : Start)
  (reached : Nat) (nodeHashCache : NodeHashCache) : Prop where
  sound : ∀ height node hash, height < merklePath.treeHeight →
      nodeHashCache.get? (height, node) = some hash →
      ∃ source, (source ∈ done ∨ source = start ∧ height < reached) ∧
        source.node height = node ∧ source.working merklePath height = .ok hash
  complete : ∀ source ∈ done, ∀ height < merklePath.treeHeight, ∃ hash,
        source.working merklePath height = .ok hash ∧
          nodeHashCache.get? (height, source.node height) = some hash
  own : ∀ height < reached, ∃ hash, start.working merklePath height = .ok hash ∧
        nodeHashCache.get? (height, start.node height) = some hash
  roots : ∀ source ∈ done, ∃ hash, root = some hash ∧
      source.working merklePath merklePath.treeHeight = .ok hash
  entry : nodeHashCache.get? (merklePath.treeHeight, 0) = root

theorem nodeInvariant_nil : NodeInvariant merklePath [] none [] where
  sound := by simp
  complete := by simp
  roots := by simp
  entry := rfl

theorem NodeInvariant.begin (hDone : NodeInvariant merklePath done root nodeHashCache) :
  NodeProgress merklePath done root start 0 nodeHashCache where
  sound := by
    intro height node hash hHeight hGet
    rcases hDone.sound height node hash hHeight hGet with ⟨source, hSrc, hNode, hWorking⟩
    exact ⟨source, .inl hSrc, hNode, hWorking⟩
  complete := hDone.complete
  own := by simp
  roots := hDone.roots
  entry := hDone.entry

theorem NodeProgress.pass (hProg : NodeProgress merklePath done root start height nodeHashCache)
  (hHeight : height < merklePath.treeHeight) (hWorking : start.working merklePath height = .ok hash)
  (hFresh : nodeHashCache.get? (height, start.node height) = none) :
  NodeProgress merklePath done root start (height + 1)
    (nodeHashCache.set (height, start.node height) hash) where
  sound := by
    intro height' node hash' hHeight' hGet
    rw [get?_set] at hGet
    split_ifs at hGet with hKey
    · cases hKey
      cases hGet
      exact ⟨start, .inr ⟨rfl, Nat.lt_succ_self _⟩, rfl, hWorking⟩
    · rcases hProg.sound height' node hash' hHeight' hGet with ⟨source, hSrc, hRest⟩
      refine ⟨source, hSrc.imp_right ?_, hRest⟩
      exact fun h => ⟨h.1, Nat.lt_succ_of_lt h.2⟩
  complete := by
    intro source hSrc height' hHeight'
    rcases hProg.complete source hSrc height' hHeight' with ⟨hash', hWorking', hGet⟩
    refine ⟨hash', hWorking', ?_⟩
    rw [get?_set_of_ne _ _ ?_, hGet]
    intro hKey
    rw [← hKey, hFresh] at hGet
    cases hGet
  own := by
    intro height' hHeight'
    by_cases hEq : height' = height
    · subst hEq
      exact ⟨hash, hWorking, get?_set_self _ _ _⟩
    · rcases hProg.own height' (by omega) with ⟨hash', hWorking', hGet⟩
      refine ⟨hash', hWorking', ?_⟩
      rw [get?_set_of_ne _ _ ?_, hGet]
      intro hKey
      exact hEq (congrArg Prod.fst hKey).symm
  roots := hProg.roots
  entry := by
    rw [get?_set_of_ne _ _ ?_, hProg.entry]
    intro hKey
    have hEq := congrArg Prod.fst hKey
    simp only at hEq
    omega

/- Reaching the top completes the evaluation. -/
theorem NodeProgress.finish
  (hProg : NodeProgress merklePath done root start merklePath.treeHeight nodeHashCache)
  (hWorking : start.working merklePath merklePath.treeHeight = .ok hash)
  (hRoot : ∀ old, root = some old → old = hash) :
  NodeInvariant merklePath (start :: done) (some hash)
    (nodeHashCache.set (merklePath.treeHeight, 0) hash) where
  sound := by
    intro height node hash' hHeight hGet
    rw [get?_set_of_ne] at hGet
    · rcases hProg.sound height node hash' hHeight hGet with ⟨source, hSrc, hRest⟩
      refine ⟨source, ?_, hRest⟩
      rcases hSrc with hDone | ⟨rfl, _⟩
      · exact mem_cons_of_mem _ hDone
      · exact mem_cons_self
    · intro hKey
      have hEq := congrArg Prod.fst hKey
      simp only at hEq
      omega
  complete := by
    have hKeep
        (height : Nat)
        (hHeight : height < merklePath.treeHeight)
        (node : Nat) :
        (nodeHashCache.set (merklePath.treeHeight, 0) hash).get? (height, node) =
          nodeHashCache.get? (height, node) := by
      apply get?_set_of_ne
      intro hKey
      have hEq := congrArg Prod.fst hKey
      simp only at hEq
      omega
    intro source hSrc height hHeight
    rw [hKeep height hHeight]
    rcases mem_cons.mp hSrc with rfl | hDone
    · exact hProg.own height hHeight
    · exact hProg.complete source hDone height hHeight
  roots := by
    intro source hSrc
    rcases mem_cons.mp hSrc with rfl | hDone
    · exact ⟨hash, rfl, hWorking⟩
    · rcases hProg.roots source hDone with ⟨old, hOld, hSrcRoot⟩
      rw [hRoot old hOld] at hSrcRoot
      exact ⟨hash, rfl, hSrcRoot⟩
  entry := get?_set_self _ _ _

theorem NodeProgress.meet
  {top : JsString} (hProg : NodeProgress merklePath done root start height nodeHashCache)
  (hHeight : height < merklePath.treeHeight) (hWorking : start.working merklePath height = .ok hash)
  (hGet : nodeHashCache.get? (height, start.node height) = some hash) (hRoot : root = some top) :
  start.working merklePath merklePath.treeHeight = .ok top ∧
    NodeInvariant merklePath (start :: done) (some top)
      nodeHashCache := by
  rcases hProg.sound height _ hash hHeight hGet with ⟨source, hSrc, hNode, hSrcWorking⟩
  have hMem : source ∈ done := by
    rcases hSrc with hDone | ⟨_, hLt⟩
    · exact hDone
    · exact absurd hLt (Nat.lt_irrefl _)
  have hFoll
      {higher : Nat}
      {result : JsString}
      (hLe : height ≤ higher)
      (hRes : source.working merklePath higher = .ok result) :
      start.working merklePath higher = .ok result :=
    working_eq_of_le hNode.symm hWorking hSrcWorking hLe hRes
  have hTop : start.working merklePath merklePath.treeHeight = .ok top := by
    rcases hProg.roots source hMem with ⟨sourceRoot, hSome, hSrcRoot⟩
    rw [hRoot] at hSome
    cases hSome
    exact hFoll (Nat.le_of_lt hHeight) hSrcRoot
  refine ⟨hTop, ?_, ?_, ?_, hProg.entry.trans hRoot⟩
  · intro height' node hash' hHeight' hGet'
    rcases hProg.sound height' node hash' hHeight' hGet' with ⟨other, hOther, hRest⟩
    refine ⟨other, ?_, hRest⟩
    rcases hOther with hDone | ⟨rfl, _⟩
    · exact mem_cons_of_mem _ hDone
    · exact mem_cons_self
  · intro other hOther height' hHeight'
    rcases mem_cons.mp hOther with rfl | hDone
    · by_cases hLow : height' < height
      · exact hProg.own height' hLow
      · have hLe : height ≤ height' := by omega
        rcases hProg.complete source hMem height' hHeight' with ⟨hash', hWorking', hGet'⟩
        refine ⟨hash', hFoll hLe hWorking', ?_⟩
        rw [← node_eq_of_le hNode hLe]
        exact hGet'
    · exact hProg.complete other hDone height' hHeight'
  · intro other hOther
    rcases mem_cons.mp hOther with rfl | hDone
    · exact ⟨top, rfl, hTop⟩
    · rcases hProg.roots other hDone with ⟨otherRoot, hSome, hOtherRoot⟩
      rw [hRoot] at hSome
      cases hSome
      exact ⟨top, rfl, hOtherRoot⟩

end MerklePath

-- One Cached Evaluation

theorem cachedMerkleRoot_eq_none_iff
  (nodeKey : Nat × Nat) (working : JsString) (treeHeight : Nat) (nodeHashCache : NodeHashCache) :
  cachedMerkleRoot nodeKey working treeHeight nodeHashCache = .ok none ↔
    nodeHashCache.get? nodeKey = none := by
  unfold cachedMerkleRoot
  cases nodeHashCache.get? nodeKey with
  | none => simp
  | some cached =>
    by_cases hEq : cached = working
    · cases nodeHashCache.get? (treeHeight, 0) <;>
        simp [hEq]
    · simp [hEq]

theorem cachedMerkleRoot_eq_some_iff
  (nodeKey : Nat × Nat) (working root : JsString) (treeHeight : Nat)
  (nodeHashCache : NodeHashCache) :
  cachedMerkleRoot nodeKey working treeHeight nodeHashCache = .ok (some root) ↔
    nodeHashCache.get? nodeKey = some working ∧
      nodeHashCache.get? (treeHeight, 0) = some root := by
  unfold cachedMerkleRoot
  cases nodeHashCache.get? nodeKey with
  | none => simp
  | some cached =>
    by_cases hEq : cached = working
    · cases nodeHashCache.get? (treeHeight, 0) <;>
        simp [hEq]
    · simp [hEq]

theorem siblingOf_le {offset : Nat} (hSafe : offset ≤ maxSafeInteger) :
  siblingOf offset ≤ maxSafeInteger := by
  unfold siblingOf
  unfold maxSafeInteger at hSafe ⊢
  split_ifs <;> omega

namespace MerklePath

variable {merklePath : MerklePath} {done : List Start} {root : Option JsString} {start : Start}

variable {hashCache : HashCache}

/- The finder call of a step succeeds in both evaluators. -/
theorem cachedFindLeaf_step
  (hWf : merklePath.WellFormed) (hIdx : start.index ≤ maxSafeInteger) (height : Nat)
  (hCache : merklePath.LeafCache hashCache) :
  ∃ hashCache', merklePath.LeafCache hashCache' ∧ merklePath.cachedFindLeaf height
        (siblingOf (start.node height)) hashCache =
      (merklePath.findOrComputeLeaf height (siblingOf (start.node height))).map
          (fun leaf => (leaf, hashCache')) := by
  have hNode : start.node height ≤ maxSafeInteger := Nat.le_trans (Nat.div_le_self _ _) hIdx
  exact cachedFindLeaf_eq hWf height (siblingOf_le hNode) hCache

variable {nodeHashCache : NodeHashCache}

section

variable (hWf : merklePath.WellFormed) (hIdx : start.index ≤ maxSafeInteger)

include hWf hIdx

theorem cachedRootLoop_sound
  {remaining height : Nat} {working result : JsString} {hashCache' : HashCache}
  {nodeHashCache' : NodeHashCache} (hTop : height + remaining = merklePath.treeHeight)
  (hCache : merklePath.LeafCache hashCache)
  (hProg : NodeProgress merklePath done root start height nodeHashCache)
  (hWorking : start.working merklePath height = .ok working)
  (hRun : merklePath.cachedRootLoop start.index remaining height working hashCache nodeHashCache =
      .ok (result, hashCache', nodeHashCache')) :
  merklePath.LeafCache hashCache' ∧ start.working merklePath merklePath.treeHeight = .ok result ∧
      ((∀ old, root = some old → old = result) →
        NodeInvariant merklePath (start :: done) (some result) nodeHashCache') := by
  induction remaining generalizing height working hashCache nodeHashCache with
  | zero =>
    have hHeight : height = merklePath.treeHeight := by omega
    subst hHeight
    cases hRun
    exact ⟨hCache, hWorking, fun hRoot => hProg.finish hWorking hRoot⟩
  | succ remaining ih =>
    have hHeight : height < merklePath.treeHeight := by omega
    rw [cachedRootLoop, hTop] at hRun
    rcases bind_eq_ok_iff.mp hRun with ⟨cachedRoot, hCached, hRest⟩
    cases cachedRoot with
    | some top =>
      cases hRest
      rcases (cachedMerkleRoot_eq_some_iff _ _ _ _ _).mp hCached with ⟨hGet, hEntry⟩
      have hRoot := hProg.entry.symm.trans hEntry
      rcases hProg.meet hHeight hWorking hGet hRoot with ⟨hRes, hInv⟩
      exact ⟨hCache, hRes, fun _ => hInv⟩
    | none =>
      have hFresh := (cachedMerkleRoot_eq_none_iff _ _ _ _).mp hCached
      rcases bind_eq_ok_iff.mp hRest with ⟨⟨leaf, hashCache₁⟩, hFind, hRest⟩
      rcases bind_eq_ok_iff.mp hRest with ⟨next, hNext, hLoop⟩
      rcases cachedFindLeaf_step hWf hIdx height hCache with ⟨hashCache₂, hCache₂, hEq⟩
      have hFind' := hEq.symm.trans hFind
      cases hLeaf : merklePath.findOrComputeLeaf height (siblingOf (start.node height)) with
      | error e =>
        rw [hLeaf] at hFind'
        cases hFind'
      | ok found =>
        rw [hLeaf] at hFind'
        cases hFind'
        have hSucc : start.working merklePath (height + 1) = .ok next := by
          rw [working_succ, hWorking, ok_bind, hLeaf]
          exact hNext
        exact ih (by omega) hCache₂ (hProg.pass hHeight hWorking hFresh) hSucc hLoop

/-
  A cached evaluation finishes when the uncached one does
  and agrees with the earlier ones at common nodes.
-/
theorem cachedRootLoop_complete {remaining height : Nat} {working top : JsString}
  (hTop : height + remaining = merklePath.treeHeight) (hCache : merklePath.LeafCache hashCache)
  (hProg : NodeProgress merklePath done root start height nodeHashCache)
  (hWorking : start.working merklePath height = .ok working)
  (hRes : start.working merklePath merklePath.treeHeight = .ok top) (hAgree :
    ∀ source ∈ done, ∀ height < merklePath.treeHeight, source.node height = start.node height →
      ∀ hash, source.working merklePath height = .ok hash →
        start.working merklePath height = .ok hash) :
  ∃ result, merklePath.cachedRootLoop start.index remaining height
        working hashCache nodeHashCache =
      .ok result := by
  induction remaining generalizing height working hashCache nodeHashCache with
  | zero => exact ⟨_, rfl⟩
  | succ remaining ih =>
    have hHeight : height < merklePath.treeHeight := by omega
    rw [cachedRootLoop, hTop]
    cases hGet : nodeHashCache.get? (height, start.node height) with
    | some hash =>
      rcases hProg.sound height _ hash hHeight hGet with
        ⟨source, hSrc, hNode, hSrcWorking⟩
      have hMem : source ∈ done := by
        rcases hSrc with hDone | ⟨_, hLt⟩
        · exact hDone
        · exact absurd hLt (Nat.lt_irrefl _)
      have hSame := hAgree source hMem height hHeight hNode hash hSrcWorking
      rw [hWorking] at hSame
      cases hSame
      rcases hProg.roots source hMem with ⟨old, hOld, _⟩
      have hMet := (cachedMerkleRoot_eq_some_iff (height, start.node height) working old
        merklePath.treeHeight nodeHashCache).mpr ⟨hGet, hProg.entry.trans hOld⟩
      refine ⟨(old, hashCache, nodeHashCache), ?_⟩
      rw [Start.node] at hMet
      rw [hMet]
      rfl
    | none =>
      have hFresh := (cachedMerkleRoot_eq_none_iff (height, start.node height) working
        merklePath.treeHeight nodeHashCache).mpr hGet
      rcases working_ok_of_le (show height + 1 ≤ merklePath.treeHeight from hHeight) hRes with
        ⟨next, hSucc⟩
      have hStep := hSucc
      rw [working_succ, hWorking, ok_bind, bind_eq_ok_iff] at hStep
      rcases hStep with ⟨leaf, hLeaf, hNext⟩
      rcases cachedFindLeaf_step hWf hIdx height hCache with ⟨hashCache₂, hCache₂, hEq⟩
      rw [hLeaf] at hEq
      rcases ih (by omega) hCache₂ (hProg.pass hHeight hWorking hGet) hSucc with ⟨result, hLoop⟩
      refine ⟨result, ?_⟩
      rw [Start.node] at hFresh hEq hNext hLoop
      rw [hFresh, ok_bind]
      simp only [hEq, Except.map, ok_bind]
      exact bind_eq_ok_iff.mpr ⟨next, hNext, hLoop⟩

end

-- All Leaves

def SameAtNodes (merklePath : MerklePath) (source start : Start) : Prop :=
  ∀ height < merklePath.treeHeight, source.node height = start.node height →
    ∀ hash, source.working merklePath height = .ok hash → start.working merklePath height = .ok hash

theorem NodeInvariant.sameAtNodes
  {source : Start} (hDone : NodeInvariant merklePath done root nodeHashCache)
  (hSrc : source ∈ done) (hStart : start ∈ done) : merklePath.SameAtNodes source start := by
  intro height hHeight hNode hash hWorking
  rcases hDone.complete source hSrc height hHeight with ⟨hash₁, hWorking₁, hGet₁⟩
  rcases hDone.complete start hStart height hHeight with ⟨hash₂, hWorking₂, hGet₂⟩
  rw [hNode, hGet₂] at hGet₁
  cases hGet₁
  rw [hWorking₁] at hWorking
  cases hWorking
  exact hWorking₂

theorem index_le_of_startOf (hWf : merklePath.WellFormed) {txid : Option JsString}
  (hStart : merklePath.startOf txid = some start) : start.index ≤ maxSafeInteger := by
  rcases exists_leaf_of_startOf hStart with ⟨leaf, hLeaf, _, hOff⟩
  exact hOff ▸ hWf.safe 0 leaf hLeaf

section

variable
    (hWf : merklePath.WellFormed)
    (hAssert : assertSingleTransactionOffset merklePath.path = .ok ())
    (hSingle : isSingleTransaction merklePath.path = false)

include hWf hAssert hSingle

theorem checkRoots_sound {leaves : List MerklePathLeaf} (hCache : merklePath.LeafCache hashCache)
  (hDone : NodeInvariant merklePath done root nodeHashCache)
  (hCheck : merklePath.checkRoots root leaves hashCache nodeHashCache = .ok ()) :
  ∃ done' root' nodeHashCache', NodeInvariant merklePath done' root' nodeHashCache' ∧
      (∀ start ∈ done, start ∈ done') ∧ ∀ leaf ∈ leaves, ∃ start ∈ done',
          merklePath.startOf leaf.hash = some start := by
  induction leaves generalizing done root hashCache nodeHashCache with
  | nil => exact ⟨done, root, nodeHashCache, hDone, fun _ h => h, by simp⟩
  | cons leaf leaves ih =>
    rcases bind_eq_ok_iff.mp hCheck with
      ⟨⟨computed, hashCache', nodeHashCache'⟩, hRoot, hRest⟩
    rcases (computeRootCached_eq_ok_iff hAssert _ _ _ _).mp hRoot with ⟨start, hStart, hLoop⟩
    rw [hSingle] at hLoop
    rcases cachedRootLoop_sound hWf (index_le_of_startOf hWf hStart)
        (Nat.zero_add _) hCache hDone.begin rfl hLoop with
      ⟨hCache', _, hInv⟩
    simp only at hRest
    split_ifs at hRest with hMismatch
    have hSame : root.getD computed = computed := not_not.mp hMismatch
    rw [hSame] at hRest
    have hNext := hInv (by
      rintro old rfl
      exact hSame)
    rcases ih hCache' hNext hRest with ⟨done', root', cache', hDone', hSub, hLeaves⟩
    refine ⟨done', root', cache', hDone', fun s h => hSub s (mem_cons_of_mem _ h), ?_⟩
    intro other hOther
    rcases mem_cons.mp hOther with rfl | hTail
    · exact ⟨start, hSub start mem_cons_self, hStart⟩
    · exact hLeaves other hTail

theorem checkRoots_complete (top : JsString) {P : Start → Prop}
  (hTop : ∀ start, P start → start.working merklePath merklePath.treeHeight = .ok top)
  (hAgree : ∀ source start, P source → P start → merklePath.SameAtNodes source start)
  {leaves : List MerklePathLeaf}
  (hLeaves : ∀ leaf ∈ leaves, ∃ start, merklePath.startOf leaf.hash = some start ∧ P start)
  (hDoneP : ∀ start ∈ done, P start) (hRootTop : ∀ old, root = some old → old = top)
  (hCache : merklePath.LeafCache hashCache)
  (hDone : NodeInvariant merklePath done root nodeHashCache) :
  merklePath.checkRoots root leaves hashCache nodeHashCache = .ok () := by
  induction leaves generalizing done root hashCache nodeHashCache with
  | nil => rfl
  | cons leaf leaves ih =>
    rcases hLeaves leaf mem_cons_self with ⟨start, hStart, hP⟩
    have hIdx := index_le_of_startOf hWf hStart
    rcases cachedRootLoop_complete hWf hIdx (Nat.zero_add _) hCache hDone.begin rfl
        (hTop start hP) (fun source hSrc => hAgree source start (hDoneP source hSrc) hP) with
      ⟨⟨computed, hashCache', nodeHashCache'⟩, hLoop⟩
    rcases cachedRootLoop_sound hWf hIdx (Nat.zero_add _) hCache hDone.begin rfl
        hLoop with
      ⟨hCache', hComputed, hInv⟩
    rw [hTop start hP] at hComputed
    cases hComputed
    have hRoot := (computeRootCached_eq_ok_iff hAssert leaf.hash hashCache nodeHashCache
      (top, hashCache', nodeHashCache')).mpr ⟨start, hStart, by rw [hSingle]; exact hLoop⟩
    have hSame : root.getD top = top := by
      cases root with
      | none => rfl
      | some old => exact hRootTop old rfl
    rw [checkRoots, hRoot, ok_bind]
    simp only [hSame, ne_eq, not_true_eq_false, if_false]
    refine ih (fun other hOther => hLeaves other (mem_cons_of_mem _ hOther))
      ?_ ?_ hCache' (hInv hRootTop)
    · intro other hOther
      rcases mem_cons.mp hOther with rfl | hOld
      · exact hP
      · exact hDoneP other hOld
    · rintro old hOld
      exact (Option.some.inj hOld).symm

end

-- Exact Acceptance

/-
  All level-zero leaves have one root, and their evaluations
  have one working hash at common nodes.
-/
structure RootsAgree (merklePath : MerklePath) (root : JsString) : Prop where
  root : ∀ leaf ∈ merklePath.level 0, merklePath.computeRoot leaf.hash = .ok root
  nodes : ∀ leaf ∈ merklePath.level 0, ∀ other ∈ merklePath.level 0,
        ∀ source start, merklePath.startOf leaf.hash = some source →
          merklePath.startOf other.hash = some start → merklePath.SameAtNodes source start

theorem level_eq_of_isSingleTransaction (hSingle : isSingleTransaction merklePath.path = true) :
  ∃ leaf, merklePath.level 0 = [leaf] := by
  unfold isSingleTransaction at hSingle
  split at hSingle
  · rename_i leaf hPath
    exact ⟨leaf, by simp [level, hPath]⟩
  · cases hSingle

theorem checkRoots_single_iff (hAssert : assertSingleTransactionOffset merklePath.path = .ok ())
  (hSingle : isSingleTransaction merklePath.path = true) :
  merklePath.checkRoots none (merklePath.level 0) [] [] = .ok () ↔
    ∃ root, merklePath.RootsAgree root := by
  rcases level_eq_of_isSingleTransaction hSingle with ⟨leaf, hLevel⟩
  constructor
  · intro hCheck
    rw [hLevel, checkRoots, bind_eq_ok_iff] at hCheck
    rcases hCheck with ⟨result, hRoot, _⟩
    rcases (computeRootCached_eq_ok_iff hAssert _ _ _ _).mp hRoot with ⟨start, hStart, _⟩
    refine ⟨start.txid, ?_, ?_⟩
    · intro other hOther
      rw [hLevel, mem_singleton] at hOther
      rw [hOther, computeRoot_eq_ok_iff hAssert]
      exact ⟨start, hStart, by rw [hSingle]; rfl⟩
    · intro left hLeft right hRight source target hSrc hTgt
      rw [hLevel, mem_singleton] at hLeft hRight
      rw [hLeft] at hSrc
      rw [hRight, hSrc] at hTgt
      cases hTgt
      exact fun _ _ _ _ hWorking => hWorking
  · rintro ⟨root, hAgree⟩
    have hRoot := hAgree.root leaf (by rw [hLevel]; simp)
    rcases (computeRoot_eq_ok_iff hAssert _ _).mp hRoot with ⟨start, hStart, _⟩
    have hCached := (computeRootCached_eq_ok_iff hAssert leaf.hash [] []
      (start.txid, [], [])).mpr ⟨start, hStart, by rw [hSingle]; rfl⟩
    rw [hLevel, checkRoots, hCached]
    simp [checkRoots]

theorem checkRoots_eq_ok_iff (hWf : merklePath.WellFormed)
  (hAssert : assertSingleTransactionOffset merklePath.path = .ok ()) :
  merklePath.checkRoots none (merklePath.level 0) [] [] = .ok () ↔
    ∃ root, merklePath.RootsAgree root := by
  cases hSingle : isSingleTransaction merklePath.path with
  | true => exact checkRoots_single_iff hAssert hSingle
  | false =>
    constructor
    · intro hCheck
      rcases checkRoots_sound hWf hAssert hSingle (sound_nil _) nodeInvariant_nil
          hCheck with
        ⟨done, root, nodeHashCache, hDone, _, hLeaves⟩
      refine ⟨root.getD [], ?_, ?_⟩
      · intro leaf hLeaf
        rcases hLeaves leaf hLeaf with ⟨start, hMem, hStart⟩
        rcases hDone.roots start hMem with ⟨hash, rfl, hRoot⟩
        rw [computeRoot_eq_ok_iff hAssert]
        exact ⟨start, hStart, by rw [hSingle]; exact hRoot⟩
      · intro leaf hLeaf other hOther source start hSrc hStart
        rcases hLeaves leaf hLeaf with ⟨source', hMem, hSrc'⟩
        rcases hLeaves other hOther with ⟨start', hMem', hStart'⟩
        rw [hSrc'] at hSrc
        rw [hStart'] at hStart
        cases hSrc
        cases hStart
        exact hDone.sameAtNodes hMem hMem'
    · rintro ⟨root, hAgree⟩
      have hRoot
          (leaf : MerklePathLeaf)
          (hLeaf : leaf ∈ merklePath.level 0) :
          ∃ start, merklePath.startOf leaf.hash = some start ∧
            start.working merklePath merklePath.treeHeight = .ok root := by
        rcases (computeRoot_eq_ok_iff hAssert _ _).mp (hAgree.root leaf hLeaf) with
          ⟨start, hStart, hRoot⟩
        rw [hSingle] at hRoot
        exact ⟨start, hStart, hRoot⟩
      refine checkRoots_complete hWf hAssert hSingle root
        (P := fun start => ∃ leaf ∈ merklePath.level 0, merklePath.startOf leaf.hash = some start)
        ?_ ?_ ?_ (by simp) (by simp) (sound_nil _) nodeInvariant_nil
      · rintro start ⟨leaf, hLeaf, hStart⟩
        rcases hRoot leaf hLeaf with ⟨start', hStart', hTop⟩
        rw [hStart] at hStart'
        cases hStart'
        exact hTop
      · rintro source start ⟨leaf, hLeaf, hSrc⟩ ⟨other, hOther, hStart⟩
        exact hAgree.nodes leaf hLeaf other hOther source start hSrc hStart
      · intro leaf hLeaf
        rcases hRoot leaf hLeaf with ⟨start, hStart, _⟩
        exact ⟨start, hStart, leaf, hLeaf, hStart⟩

end MerklePath

end TsStack
