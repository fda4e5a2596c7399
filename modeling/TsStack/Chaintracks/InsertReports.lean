import TsStack.Chaintracks.LiveChain

/-
  What `insertHeader` reports of a reorganization, against
  the flags of the headers it leaves.

  The flags are those before older headers are pruned.
-/

-- Reports

open List

namespace TsStack.Chaintracks

open ParentLink

open StateProgram (finalState)

/- A header is stored with `isActive`. -/
def ActiveIn (live : List LiveBlockHeader) (headerId : Nat) : Prop :=
  ∃ stored ∈ live, stored.headerId = headerId ∧ stored.isActive = true

def InactiveParent (live : List LiveBlockHeader) (child parent : LiveBlockHeader) : Prop :=
  ParentLink child parent ∧ parent ∈ live ∧ parent.isActive = false

/-
  The report of an insertion of a new active tip: the deactivated headers from the old tip
  downwards, with the depth, and the headers that become active, which are the new one and its
  inactive ancestors.
-/
structure Reports
  (live : List LiveBlockHeader) (tip newHeader : LiveBlockHeader) (stored : List LiveBlockHeader)
  (result : InsertHeaderResult) : Prop where
  downwards : ∃ ancestor, RelationPath ParentLink tip result.deactivatedHeaders ancestor
  deactivated : ∀ header, header ∈ result.deactivatedHeaders ↔
      header ∈ live ∧ header.isActive = true ∧ ¬ActiveIn stored header.headerId
  activated : ∀ header ∈ live, header.isActive = false → (ActiveIn stored header.headerId ↔
        Relation.ReflTransGen (InactiveParent live) newHeader header)
  newActive : ActiveIn stored newHeader.headerId
  depth : result.reorgDepth = 0 ↔ result.deactivatedHeaders = []

-- Stored Headers

/- The headers with a new one after `oneBack`, as stored. -/
def storedHeaders
  (live : List LiveBlockHeader) (newHeader oneBack : LiveBlockHeader) : List LiveBlockHeader :=
  setHeader (if oneBack.isChainTip then setHeader live { oneBack with isChainTip := false }
    else live)
    newHeader

variable {live : List LiveBlockHeader} {newHeader oneBack : LiveBlockHeader}

theorem activeIn_setHeader_self (header : LiveBlockHeader) :
  ActiveIn (setHeader live header) header.headerId ↔ header.isActive = true := by
  unfold setHeader
  split_ifs with hAny
  · rcases List.any_eq_true.mp hAny with ⟨old, hOld, hId⟩
    constructor
    · rintro ⟨stored, hStored, hSame, hAct⟩
      rcases List.mem_map.mp hStored with ⟨other, -, rfl⟩
      split_ifs at hSame hAct with hOther
      · exact hAct
      · exact absurd hSame hOther
    · intro hAct
      refine ⟨header, List.mem_map.mpr ⟨old, hOld, ?_⟩, rfl, hAct⟩
      exact if_pos (of_decide_eq_true hId)
  · constructor
    · rintro ⟨stored, hStored, hSame, hAct⟩
      rcases mem_concat_iff.mp hStored with hOld | hNew
      · refine absurd (List.any_eq_true.mpr ⟨stored, hOld, ?_⟩) hAny
        exact decide_eq_true hSame
      · rw [hNew] at hAct
        exact hAct
    · intro hAct
      exact ⟨header, by simp, rfl, hAct⟩

theorem activeIn_setHeader_of_ne
  {header : LiveBlockHeader} {headerId : Nat} (hNe : headerId ≠ header.headerId) :
  ActiveIn (setHeader live header) headerId ↔ ActiveIn live headerId := by
  unfold setHeader
  split_ifs with hAny
  · constructor
    · rintro ⟨stored, hStored, rfl, hAct⟩
      rcases List.mem_map.mp hStored with ⟨other, hOther, rfl⟩
      split_ifs at hNe hAct ⊢ with hSame
      · exact absurd rfl hNe
      · exact ⟨other, hOther, rfl, hAct⟩
    · rintro ⟨stored, hStored, rfl, hAct⟩
      exact ⟨stored, List.mem_map.mpr ⟨stored, hStored, if_neg hNe⟩, rfl, hAct⟩
  · constructor
    · rintro ⟨stored, hStored, rfl, hAct⟩
      rcases mem_concat_iff.mp hStored with hOld | hNew
      · exact ⟨stored, hOld, rfl, hAct⟩
      · exact absurd (congrArg _ hNew) hNe
    · rintro ⟨stored, hStored, hSame, hAct⟩
      exact ⟨stored, mem_append_left _ hStored, hSame, hAct⟩

theorem activeIn_storedHeaders {headerId : Nat} (hNe : headerId ≠ newHeader.headerId) :
  ActiveIn (storedHeaders live newHeader oneBack) headerId ↔
    if oneBack.isChainTip = true ∧ headerId = oneBack.headerId then oneBack.isActive = true
    else ActiveIn live headerId := by
  rw [storedHeaders, activeIn_setHeader_of_ne hNe]
  by_cases hTip : oneBack.isChainTip = true
  · rw [if_pos hTip]
    by_cases hSame : headerId = oneBack.headerId
    · rw [if_pos ⟨hTip, hSame⟩, hSame]
      exact activeIn_setHeader_self { oneBack with isChainTip := false }
    · rw [if_neg fun hBoth => hSame hBoth.2]
      exact activeIn_setHeader_of_ne hSame
  · rw [if_neg hTip, if_neg fun hBoth => hTip hBoth.1]

theorem storeNewHeader_ok
  {options : Options} {data final : Storage} {result returned : InsertHeaderResult}
  (hRun : storeNewHeader newHeader oneBack result options data = .ok returned final) :
  returned = { result with added := true } ∧ ∃ stored : Storage, stored.liveHeaders =
        storedHeaders data.liveHeaders newHeader oneBack ∧
      final =
        if result.isActiveTip then
          finalState (pruneLiveBlockHeaders newHeader.height options stored)
        else stored := by
  unfold storeNewHeader at hRun
  rcases StateProgram.bind_ok hRun with ⟨_, cleared, hClear, hStore⟩
  have hLive : cleared.liveHeaders =
      if oneBack.isChainTip then setHeader data.liveHeaders { oneBack with isChainTip := false }
      else data.liveHeaders := by
    unfold clearParentTip at hClear
    split_ifs at hClear ⊢ <;> cases hClear <;> rfl
  rcases StateProgram.bind_ok hStore with ⟨_, added, hAdd, hRest⟩
  cases hAdd
  split_ifs at hRest ⊢ with hTip
  · rcases StateProgram.bind_ok hRest with ⟨_, stored, hSet, hPrune⟩
    cases hSet
    rcases StateProgram.bind_ok hPrune with ⟨_, pruned, hPruned, hReturn⟩
    cases hReturn
    refine ⟨rfl, _, ?_, (congrArg finalState hPruned).symm⟩
    exact congrArg (setHeader · newHeader) hLive
  · cases hRest
    exact ⟨rfl, _, congrArg (setHeader · newHeader) hLive, rfl⟩

-- Flags

variable {tip lowest ancestor : LiveBlockHeader} {nodes : List LiveBlockHeader} {maxHeaderId : Nat}

section

variable (hTree : LiveTree live maxHeaderId tip nodes lowest)

include hTree

theorem LiveTree.activeIn_map {f : LiveBlockHeader → LiveBlockHeader}
  (hf : Reflags f) {header : LiveBlockHeader} (hMem : header ∈ live) :
  ActiveIn (live.map f) header.headerId ↔ (f header).isActive = true := by
  constructor
  · rintro ⟨stored, hStored, hSame, hAct⟩
    rcases List.mem_map.mp hStored with ⟨other, hOther, rfl⟩
    rw [hf.headerId] at hSame
    rw [← hTree.linked.eq_of_headerId hOther hMem hSame]
    exact hAct
  · intro hAct
    exact ⟨f header, List.mem_map_of_mem hMem, hf.headerId header, hAct⟩

theorem LiveTree.activeIn_iff {header : LiveBlockHeader}
  (hMem : header ∈ live) : ActiveIn live header.headerId ↔ header.isActive = true := by
  have hMap := hTree.activeIn_map
    (fun header => ⟨header.isActive, header.isChainTip, rfl⟩ : Reflags id) hMem
  rwa [List.map_id] at hMap

theorem LiveTree.ne_newHeader
  (hExt : Extends newHeader oneBack maxHeaderId) {header : LiveBlockHeader}
  (hMem : header ∈ live) : header.headerId ≠ newHeader.headerId := by
  have hLe := hTree.linked.headerId_le header hMem
  rw [hExt.headerId_eq]
  omega

/- Where nothing is reorganized all flags stay. -/
theorem LiveTree.activeIn_stored_iff (hOneBack : oneBack ∈ live)
  (hExt : Extends newHeader oneBack maxHeaderId) {header : LiveBlockHeader}
  (hMem : header ∈ live) :
  ActiveIn (storedHeaders live newHeader oneBack) header.headerId ↔ header.isActive = true := by
  rw [activeIn_storedHeaders (hTree.ne_newHeader hExt hMem)]
  split_ifs with hParent
  · rw [hTree.linked.eq_of_headerId hMem hOneBack hParent.2]
  · exact hTree.activeIn_iff hMem

/- The inactive parent of the new header is `oneBack`. -/
theorem LiveTree.inactiveParent_iff (hOneBack : oneBack ∈ live)
  (hExt : Extends newHeader oneBack maxHeaderId) (parent : LiveBlockHeader) :
  InactiveParent live newHeader parent ↔ parent = oneBack ∧ oneBack.isActive = false := by
  constructor
  · rintro ⟨hLink, hParent, hInactive⟩
    have hId := Option.some.inj (hLink.1.symm.trans hExt.link.1)
    obtain rfl := hTree.linked.eq_of_headerId hParent hOneBack hId
    exact ⟨rfl, hInactive⟩
  · rintro ⟨rfl, hInactive⟩
    exact ⟨hExt.link, hOneBack, hInactive⟩

end

variable {result : InsertHeaderResult}

section

variable
    (hTree : LiveTree live maxHeaderId tip nodes lowest)
    (hOneBack : oneBack ∈ live)
    (hExt : Extends newHeader oneBack maxHeaderId)

include hTree hOneBack hExt

/-
  An active parent: nothing is deactivated, and the depth is
  nothing only if the parent is the tip.
-/
theorem reports_iff_of_active (hAct : oneBack.isActive = true)
  (hNew : newHeader.isActive = true) (hNone : result.deactivatedHeaders = [])
  (hDepth : result.reorgDepth =
    if oneBack.isChainTip then 0
    else (min tip.height newHeader.height : Nat) - (oneBack.height : Int)) :
  Reports live tip newHeader (storedHeaders live newHeader oneBack) result ↔
    oneBack.isChainTip = true := by
  have hStored := fun header =>
    @LiveTree.activeIn_stored_iff _ _ _ _ _ _ _ hTree hOneBack hExt header
  constructor
  · intro hReports
    have hZero := hReports.depth.mpr hNone
    by_contra hTip
    rw [hDepth, if_neg hTip] at hZero
    have hOnChain := (hTree.chain.mem_iff oneBack).mpr ⟨hOneBack, hAct⟩
    have hHigher : oneBack.height < tip.height := by
      refine lt_of_le_of_ne (hTree.chain.path.measure_bounds height hOnChain).2 ?_
      intro hEq
      have hSame := hTree.chain.path.eq_of_measure_eq
        height hOnChain hTree.chain.path.start_mem hEq
      rw [hSame] at hTip
      exact hTip hTree.chain.isChainTip
    have hNext := hExt.link.2.2
    omega
  · intro hTip
    refine ⟨⟨tip, ?_⟩, ?_, ?_, ?_, ?_⟩
    · rw [hNone]
      exact .stop tip
    · intro header
      rw [hNone]
      constructor
      · intro hIn
        cases hIn
      · rintro ⟨hMem, hNow, hNot⟩
        exact absurd ((hStored header hMem).mpr hNow) hNot
    · intro header hMem hInactive
      rw [hStored header hMem, hInactive]
      constructor
      · intro hNo
        cases hNo
      · intro hPath
        rcases Relation.ReflTransGen.cases_head hPath with rfl | ⟨parent, hParent, -⟩
        · exact absurd rfl (hTree.ne_newHeader hExt hMem)
        · have hInactive := ((hTree.inactiveParent_iff hOneBack hExt parent).mp hParent).2
          cases hAct.symm.trans hInactive
    · exact (activeIn_setHeader_self newHeader).mpr hNew
    · rw [hDepth, if_pos hTip, hNone]
      exact ⟨fun _ => rfl, fun _ => rfl⟩

theorem not_reports_of_marked (hInactive : oneBack.isActive = false)
  (hTip : oneBack.isChainTip = true) (moved : List LiveBlockHeader) :
  ¬Reports live tip newHeader (storedHeaders moved newHeader oneBack) result := by
  intro hReports
  have hParent := (hTree.inactiveParent_iff hOneBack hExt oneBack).mpr ⟨rfl, hInactive⟩
  have hAct := (hReports.activated oneBack hOneBack hInactive).mpr (.single hParent)
  rw [activeIn_storedHeaders (hTree.ne_newHeader hExt hOneBack), if_pos ⟨hTip, rfl⟩] at hAct
  cases hInactive.symm.trans hAct

end

-- Reports of a Reorganization

variable {before after branch : List LiveBlockHeader}

theorem reaches_of_branch
  {first header : LiveBlockHeader} (hBranch : RelationPath ParentLink first branch ancestor)
  (hInactive : ∀ header ∈ branch, header ∈ live ∧ header.isActive = false)
  (hHeader : header ∈ branch) : Relation.ReflTransGen (InactiveParent live) first header := by
  induction hBranch with
  | stop => cases hHeader
  | @step child parent ancestor rest hLink hPath ih =>
    rcases mem_cons.mp hHeader with rfl | hRest
    · exact .refl
    · rcases hPath.exists_cons (ne_nil_of_mem hRest) with ⟨_, _, hCons, -, -⟩
      have hParent := hInactive parent (by simp [hCons])
      refine .head ⟨hLink, hParent⟩ (ih ?_ hRest)
      exact fun node hNode => hInactive node (mem_cons_of_mem _ hNode)

theorem LiveTree.mem_branch_of_inactiveParent (hTree : LiveTree live maxHeaderId tip nodes lowest)
  (hBranch : RelationPath ParentLink oneBack branch ancestor)
  (hInactive : ∀ header ∈ branch, header ∈ live ∧ header.isActive = false)
  (hAnc : ancestor ∈ live ∧ ancestor.isActive = true) {child parent : LiveBlockHeader}
  (hChild : child ∈ branch) (hParent : InactiveParent live child parent) : parent ∈ branch := by
  rcases hParent with ⟨hLink, hIn, hNot⟩
  rcases hBranch.exists_next hChild with ⟨next, hNext, hNextLink⟩
  have hId := Option.some.inj (hNextLink.1.symm.trans hLink.1)
  rcases mem_concat_iff.mp hNext with hNext | hLast
  · rw [← hTree.linked.eq_of_headerId (hInactive next hNext).1 hIn hId]
    exact hNext
  · rw [hLast] at hId
    have hSame := hTree.linked.eq_of_headerId hAnc.1 hIn hId
    rw [← hSame, hAnc.2] at hNot
    cases hNot

theorem reports_of_reorganization
  (hTree : LiveTree live maxHeaderId tip nodes lowest) (hOneBack : oneBack ∈ live)
  (hExt : Extends newHeader oneBack maxHeaderId) (hParent : oneBack.isActive = false)
  (hUnmarked : oneBack.isChainTip = false) (hNew : newHeader.isActive = true)
  (hNodes : nodes = before ++ after) (hPre : RelationPath ParentLink tip before ancestor)
  (hAfter : RelationPath ParentLink ancestor after lowest)
  (hBranch : RelationPath ParentLink oneBack branch ancestor)
  (hInactive : ∀ header ∈ branch, header ∈ live ∧ header.isActive = false)
  (hDeactivated : result.deactivatedHeaders = before)
  (hDepth : result.reorgDepth =
    (min tip.height newHeader.height : Nat) - (ancestor.height : Int)) :
  Reports live tip newHeader (storedHeaders ((live.map
          (setActive (before.map (·.headerId)) false)).map
        (setActive (branch.map (·.headerId)) true))
      newHeader oneBack)
    result := by
  have hChain := hTree.chain.mem_iff
  rw [hNodes, append_assoc] at hChain
  have hNodup := hTree.chain.path.nodup height
  rw [hNodes, append_assoc, nodup_append] at hNodup
  have hAnc := (hChain ancestor).mp (mem_append_right _ hAfter.start_mem)
  have hCons : branch ≠ [] := by
    rintro rfl
    rw [hBranch.eq_of_nil, hAnc.2] at hParent
    cases hParent
  have hStored : ∀ header ∈ live, ActiveIn (storedHeaders ((live.map
              (setActive (before.map (·.headerId)) false)).map
            (setActive (branch.map (·.headerId)) true))
          newHeader oneBack) header.headerId ↔ header ∈ branch ++ after ++ [lowest] := by
    intro header hMem
    have hReflags := (reflags_setActive (branch.map (·.headerId)) true).comp
      (reflags_setActive (before.map (·.headerId)) false)
    rw [activeIn_storedHeaders (hTree.ne_newHeader hExt hMem),
      hUnmarked, if_neg (by simp), List.map_map, hTree.activeIn_map hReflags hMem]
    exact hTree.isActive_reorganized_iff hNodes hInactive hMem
  refine ⟨⟨ancestor, hDeactivated ▸ hPre⟩, ?_, ?_,
    (activeIn_setHeader_self newHeader).mpr hNew, ?_⟩
  · intro header
    rw [hDeactivated]
    constructor
    · intro hIn
      rcases (hChain header).mp (mem_append_left _ hIn) with ⟨hMem, hNow⟩
      refine ⟨hMem, hNow, ?_⟩
      rw [hStored header hMem, append_assoc, mem_append]
      rintro (hOnBranch | hRest)
      · cases hNow.symm.trans (hInactive header hOnBranch).2
      · exact hNodup.2.2 header hIn header hRest rfl
    · rintro ⟨hMem, hNow, hNot⟩
      rw [hStored header hMem, append_assoc] at hNot
      rcases mem_append.mp ((hChain header).mpr ⟨hMem, hNow⟩) with hIn | hRest
      · exact hIn
      · exact absurd (mem_append_right _ hRest) hNot
  · intro header hMem hNotAct
    rw [hStored header hMem, append_assoc, mem_append]
    constructor
    · rintro (hOnBranch | hRest)
      · have hFst := (hTree.inactiveParent_iff hOneBack hExt oneBack).mpr ⟨rfl, hParent⟩
        exact .head hFst (reaches_of_branch hBranch hInactive hOnBranch)
      · have hNow := ((hChain header).mp (mem_append_right _ hRest)).2
        cases hNotAct.symm.trans hNow
    · intro hPath
      rcases Relation.ReflTransGen.cases_head hPath with rfl | ⟨first, hFst, hRest⟩
      · exact absurd rfl (hTree.ne_newHeader hExt hMem)
      · obtain ⟨rfl, -⟩ := (hTree.inactiveParent_iff hOneBack hExt first).mp hFst
        left
        clear hMem hNotAct hPath
        induction hRest with
        | refl =>
          rcases hBranch.exists_cons hCons with ⟨_, _, hEq, -, -⟩
          simp [hEq]
        | tail _ hStep ih =>
          exact hTree.mem_branch_of_inactiveParent hBranch hInactive hAnc ih hStep
  · -- the depth is positive and the tip is deactivated
    have hHigh := hPre.measure_eq height
    have hBranchHigh := hBranch.measure_eq height
    have hNext := hExt.link.2.2
    have hPos := length_pos_of_ne_nil hCons
    have hMoved : before ≠ [] := by
      rintro rfl
      obtain rfl := hPre.eq_of_nil
      have hStart : tip ≠ oneBack := by
        rintro rfl
        cases hParent.symm.trans hAnc.2
      rcases hBranch.exists_previous (by simp) hStart with ⟨child, hChild, hLink⟩
      have hNo := hTree.linked.childless child (hInactive child hChild).1 tip hAnc.1 hLink.1
      cases hNo.symm.trans hTree.chain.isChainTip
    have hPrePos := length_pos_of_ne_nil hMoved
    rw [hDeactivated, hDepth]
    constructor
    · intro hZero
      omega
    · intro hNil
      exact absurd hNil hMoved

/- A reorganization that returns replaces a bounded chain. -/
theorem LiveTree.length_le_of_applyReorganization
  {options : Options} {data moved : Storage} {deactivated : List LiveBlockHeader}
  (hTree : LiveTree data.liveHeaders maxHeaderId tip nodes lowest)
  (hNodes : nodes = before ++ after) (hPre : RelationPath ParentLink tip before ancestor)
  (hAnc : ancestor ∈ data.liveHeaders) (hNe : ancestor.headerId ≠ oneBack.headerId)
  (hRun : applyReorganization oneBack ancestor options data = .ok deactivated moved) :
  before.length ≤ MAX_STORAGE_TRAVERSAL := by
  unfold applyReorganization at hRun
  rw [if_neg hNe] at hRun
  rcases StateProgram.bind_ok hRun with ⟨_, _, hGet, hRun⟩
  cases hGet
  rw [hTree.find_tip] at hRun
  rcases StateProgram.bind_ok hRun with ⟨_, _, hWalk, -⟩
  have hWalkable : Walkable data.liveHeaders before ancestor := by
    apply hTree.linked.walkable hPre
    intro node hNode
    rcases mem_concat_iff.mp hNode with hNode | hLast
    · apply hTree.chain.mem_live
      rw [hNodes]
      simp [hNode]
    · rw [hLast]
      exact hAnc
  have hLen := deactivation.length_le_of_run hPre
    (Nat.zero_add _) (Nat.zero_le _) hWalkable hWalk
  simpa using hLen

-- Reports of an Insertion

variable {options : Options} {data moved final : Storage} {header : BlockHeader} {chainWork : Nat}

theorem reports_iff_of_prepared
  (hTree : LiveTree data.liveHeaders data.maxHeaderId tip nodes lowest)
  (hOneBack : oneBack ∈ data.liveHeaders) (hExt : Extends newHeader oneBack data.maxHeaderId)
  (hHeight : newHeader.height = header.height) (hNew : newHeader.isActive = true)
  (hRun : prepareActiveTip header oneBack tip
        { priorTip := some tip, isActiveTip := true } options
        { data with maxHeaderId := data.maxHeaderId + 1 } =
      .ok (true, result) moved) :
  result.isActiveTip = true ∧ (Reports data.liveHeaders tip newHeader
        (storedHeaders moved.liveHeaders newHeader oneBack)
        { result with added := true } ↔
      oneBack.isActive = oneBack.isChainTip) := by
  unfold prepareActiveTip at hRun
  rcases StateProgram.bind_ok hRun with ⟨_, _, hGet, hRun⟩
  cases hGet
  rcases StateProgram.bind_ok hRun with ⟨found, _, hFound, hRun⟩
  rcases StateProgram.ofExcept_ok hFound with ⟨hAnc, rfl⟩
  rcases found with _ | ancestor
  · cases hRun
  rcases StateProgram.bind_ok hRun with ⟨deactivated, _, hMove, hReturn⟩
  cases hReturn
  refine ⟨rfl, ?_⟩
  cases hAct : oneBack.isActive with
  | true =>
    obtain rfl := findActiveAncestor_of_active hAct hAnc
    unfold applyReorganization at hMove
    rw [if_pos rfl] at hMove
    cases hMove
    rw [eq_comm (a := true)]
    refine reports_iff_of_active hTree hOneBack hExt hAct hNew rfl ?_
    rw [hHeight, Bool.true_and]
  | false =>
    cases hMarked : oneBack.isChainTip with
    | true =>
      have hNot := @not_reports_of_marked _ _ _ _ _ _ _
        { priorTip := some tip, isActiveTip := true, added := true
          reorgDepth := (min tip.height header.height : Nat) - (ancestor.height : Int)
          deactivatedHeaders := deactivated }
        hTree hOneBack hExt hAct hMarked moved.liveHeaders
      simpa using hNot
    | false =>
      rcases findActiveAncestor_spec hOneBack hAnc with
        ⟨branch, hBranch, hInactive, hIn, hNow, hBranchLimit⟩
      have hOnChain := (hTree.chain.mem_iff ancestor).mpr ⟨hIn, hNow⟩
      rcases hTree.chain.path.split hOnChain with ⟨before, after, hNodes, hPre, hAfter⟩
      have hNe : ancestor.headerId ≠ oneBack.headerId := by
        intro hId
        rw [hTree.linked.eq_of_headerId hIn hOneBack hId, hAct] at hNow
        cases hNow
      have hNotPre : ancestor ∉ before := by
        intro hMem
        exact Nat.lt_irrefl _ (hPre.measure_lt height hMem)
      have hLimit := @LiveTree.length_le_of_applyReorganization
        _ _ _ _ _ _ _ _ options
        { data with maxHeaderId := data.maxHeaderId + 1 } _ _
        hTree hNodes hPre hIn hNe hMove
      rw [applyReorganization_eq options
        { data with maxHeaderId := data.maxHeaderId + 1 } hTree hNodes
        hPre hBranch hInactive hAct hOnChain hNotPre hLimit hBranchLimit] at hMove
      cases hMove
      refine iff_of_true ?_ rfl
      refine reports_of_reorganization hTree hOneBack hExt hAct
        hMarked hNew hNodes hPre hAfter hBranch hInactive rfl ?_
      rw [hHeight, Bool.false_and, if_neg Bool.false_ne_true]

theorem insertHeader_added
  (hLive : data.liveHeaders ≠ []) (hRun : insertHeader header options data = .ok result final)
  (hAdded : result.added = true) :
  ∃ oneBack, validateIncomingHeader options.chain header = .ok header ∧
      data.liveHeaders.find? (·.hash = header.previousHash) = some oneBack ∧
      insertAfter header oneBack options data = .ok result final := by
  unfold insertHeader at hRun
  rcases StateProgram.bind_ok hRun with ⟨_, _, hRead, hChecked⟩
  cases hRead
  rcases StateProgram.bind_ok hChecked with ⟨accepted, _, hAccept, hBody⟩
  rcases StateProgram.ofExcept_ok hAccept with ⟨hValid, hSame⟩
  obtain rfl := validateIncomingHeader_spec hValid
  rw [hSame] at hBody
  split_ifs at hBody with hMock
  · cases hBody
  rcases StateProgram.bind_ok hBody with ⟨_, _, hGet, hLook⟩
  cases hGet
  split_ifs at hLook with hDupe
  · cases hLook
    cases hAdded
  cases hFound : data.liveHeaders.find? (·.hash = accepted.previousHash) with
  | some oneBack =>
    rw [hFound] at hLook
    exact ⟨oneBack, hValid, rfl, hLook⟩
  | none =>
    rw [hFound] at hLook
    rcases StateProgram.bind_ok hLook with ⟨_, _, hFst, hReturn⟩
    rw [insertFirstHeader_of_live hLive] at hFst
    cases hFst
    cases hReturn
    cases hAdded

/-
  A header that is added and does not become the tip changes no `isActive`.  One that becomes the
  tip is reported as it is stored exactly where the flags of its parent agree.
-/
theorem insertHeader_reports_iff
  (options : Options) (data final : Storage) (header : BlockHeader) (result : InsertHeaderResult)
  (tip lowest : LiveBlockHeader) (nodes : List LiveBlockHeader)
  (hTree : LiveTree data.liveHeaders data.maxHeaderId tip nodes lowest)
  (hRun : insertHeader header options data = .ok result final) (hAdded : result.added = true) :
  ∃ oneBack newHeader stored, data.liveHeaders.find? (·.hash = header.previousHash) =
        some oneBack ∧
      newHeader.toBlockHeader = header ∧
      (result.isActiveTip = false → final = stored ∧ ∀ old ∈ data.liveHeaders,
            (ActiveIn final.liveHeaders old.headerId ↔ old.isActive = true)) ∧
      (result.isActiveTip = true → final = finalState
            (pruneLiveBlockHeaders newHeader.height options stored) ∧
          (Reports data.liveHeaders tip newHeader stored.liveHeaders result ↔
            oneBack.isActive = oneBack.isChainTip)) := by
  rcases insertHeader_added (List.ne_nil_of_mem hTree.chain.tip_mem.1)
    hRun hAdded with ⟨oneBack, hValid, hFound, hRun⟩
  have hOneBack := List.mem_of_find?_eq_some hFound
  have hHash : oneBack.hash = header.previousHash := by simpa using List.find?_some hFound
  have hPrior := hTree.findPriorTip_eq hOneBack
  have hSteps : oneBack.height + 1 = header.height ∧ ∃ work chainWork,
        convertBitsToWork header.bits options.chain = .ok work ∧
          addWork oneBack.chainWork work = .ok chainWork := by
    unfold insertAfter at hRun
    rcases StateProgram.bind_ok hRun with ⟨_, _, hRead, hRun⟩
    cases hRead
    rcases StateProgram.bind_ok hRun with ⟨_, _, hGet, hRun⟩
    cases hGet
    split_ifs at hRun with hNe
    · cases hRun
      cases hAdded
    rcases StateProgram.bind_ok hRun with ⟨found, _, hFind, hRun⟩
    rcases StateProgram.ofExcept_ok hFind with ⟨hTip, rfl⟩
    cases hPrior.symm.trans hTip
    rcases StateProgram.bind_ok hRun with ⟨work, _, hConvert, hRun⟩
    rcases StateProgram.ofExcept_ok hConvert with ⟨hWork, rfl⟩
    rcases StateProgram.bind_ok hRun with ⟨chainWork, _, hAdd, -⟩
    exact ⟨not_not.mp hNe, work, chainWork, hWork, (StateProgram.ofExcept_ok hAdd).1⟩
  rcases hSteps with ⟨hHeight, work, chainWork, hWork, hSum⟩
  rw [insertAfter_eq hHeight hPrior hWork hSum] at hRun
  have hExtends := extends_newLiveHeader hHeight hHash
    (validateIncomingHeader_height_le hValid) data.maxHeaderId chainWork
  rcases StateProgram.bind_ok hRun with ⟨⟨prepared, reported⟩, moved, hPrepare, hStore⟩
  cases prepared with
  | false =>
    -- a header that is not prepared is not added
    cases hStore
    cases hMore : isMoreWork chainWork tip.chainWork with
    | false =>
      rw [hMore] at hPrepare
      cases hPrepare
    | true =>
      rw [hMore] at hPrepare
      unfold prepareActiveTip at hPrepare
      rcases StateProgram.bind_ok hPrepare with ⟨_, _, hGet, hPrepare⟩
      cases hGet
      rcases StateProgram.bind_ok hPrepare with ⟨found, _, _, hPrepare⟩
      rcases found with _ | ancestor
      · cases hPrepare
        cases hAdded
      · rcases StateProgram.bind_ok hPrepare with ⟨_, _, _, hReturn⟩
        cases hReturn
  | true =>
    rcases storeNewHeader_ok hStore with ⟨rfl, stored, hLive, hFinal⟩
    refine ⟨oneBack, newLiveHeader header oneBack (data.maxHeaderId + 1)
        chainWork (isMoreWork chainWork tip.chainWork),
      stored, hFound, rfl, ?_, ?_⟩
    all_goals
      intro hTip
      change reported.isActiveTip = _ at hTip
    · rw [hTip, if_neg Bool.false_ne_true] at hFinal
      refine ⟨hFinal, fun old hOld => ?_⟩
      cases hMore : isMoreWork chainWork tip.chainWork with
      | true =>
        rw [hMore] at hPrepare
        have hPrepared := (reports_iff_of_prepared hTree hOneBack
          (hExtends true) rfl rfl hPrepare).1
        cases hTip.symm.trans hPrepared
      | false =>
        rw [hMore] at hPrepare
        cases hPrepare
        rw [hFinal, hLive]
        exact hTree.activeIn_stored_iff hOneBack (hExtends _) hOld
    · rw [hTip, if_pos rfl] at hFinal
      refine ⟨hFinal, ?_⟩
      cases hMore : isMoreWork chainWork tip.chainWork with
      | false =>
        rw [hMore] at hPrepare
        cases hPrepare
        cases hTip
      | true =>
        rw [hMore] at hPrepare hLive
        rw [hLive]
        exact (reports_iff_of_prepared hTree hOneBack (hExtends true) rfl rfl hPrepare).2

-- Reports on Mined Headers

def minedData (headers : List BlockHeader) : Storage :=
  insertAll regtestOptions headers { bulkFiles := [genesisFile] }

def checksReport (headers : List BlockHeader) (header : BlockHeader)
  (check : LiveBlockHeader → InsertHeaderResult → Bool) : Bool :=
  match (minedData headers).liveHeaders.find? (·.hash = header.previousHash),
    insertHeader header regtestOptions (minedData headers) with
  | some oneBack, .ok result _ => check oneBack result
  | _, _ => false

theorem exists_of_checksReport
  {headers : List BlockHeader} {check : LiveBlockHeader → InsertHeaderResult → Bool}
  (hSafe : insertAllSafely regtestOptions headers { bulkFiles := [genesisFile] } = true)
  (hCheck : checksReport headers header check = true) :
  ∃ tip nodes lowest oneBack result final, LiveTree (minedData headers).liveHeaders
        (minedData headers).maxHeaderId tip nodes lowest ∧
      (minedData headers).liveHeaders.find? (·.hash = header.previousHash) = some oneBack ∧
      insertHeader header regtestOptions (minedData headers) = .ok result final ∧
      check oneBack result = true := by
  have hData := liveTreeStorage_of_safe_run (safe_run_insertHeaders regtestOptions _ headers hSafe)
  unfold checksReport at hCheck
  split at hCheck
  · rename_i oneBack result final hFound hRun
    rcases hData.tree with hEmpty | ⟨tip, nodes, lowest, hTree⟩
    · have hIn := mem_of_find?_eq_some hFound
      rw [minedData, hEmpty] at hIn
      cases hIn
    · exact ⟨tip, nodes, lowest, oneBack, result, final, hTree, hFound, hRun, hCheck⟩
  · cases hCheck

theorem insertHeader_reports_iff_sideTip :
  ∃ tip newHeader stored result, result.deactivatedHeaders ≠ [] ∧ Reports (minedData
          [firstHeader, secondHeader, sideHeader]).liveHeaders
        tip newHeader stored result := by
  have hCheck :
      checksReport [firstHeader, secondHeader, sideHeader] sideTipHeader (fun oneBack result =>
          result.added && result.isActiveTip && !result.deactivatedHeaders.isEmpty &&
              oneBack.isActive = oneBack.isChainTip) = true := by
    decide +kernel
  have hSafe := @insertAllSafely_of_append _ _
    [firstHeader, secondHeader, sideHeader] [sideTipHeader] insertAllSafely_sideTip
  rcases exists_of_checksReport hSafe hCheck with
    ⟨tip, nodes, lowest, oneBack, result, final, hTree, hFound, hRun, hReport⟩
  simp only [Bool.and_eq_true, Bool.not_eq_true', decide_eq_true_eq] at hReport
  rcases hReport with ⟨⟨⟨hAdded, hTip⟩, hMoved⟩, hFlags⟩
  rcases insertHeader_reports_iff regtestOptions _ final sideTipHeader
      result tip lowest nodes hTree hRun hAdded with
    ⟨parent, newHeader, stored, hParent, -, -, hReports⟩
  cases hFound.symm.trans hParent
  exact ⟨tip, newHeader, stored.liveHeaders, result,
    fun hNil => by simp [hNil] at hMoved, (hReports hTip).2.mpr hFlags⟩

/-
  A header of more work after an active header that is not
  the tip is reported with a depth and nothing deactivated.
-/
theorem insertHeader_not_reports_heavy :
  ¬ ∀ (options : Options)
      (data final : Storage)
      (header : BlockHeader)
      (result : InsertHeaderResult)
      (tip lowest : LiveBlockHeader)
      (nodes : List LiveBlockHeader),
    LiveTree data.liveHeaders data.maxHeaderId tip nodes lowest →
      insertHeader header options data = .ok result final →
        result.added = true → result.isActiveTip = true → ∃ newHeader stored,
            newHeader.toBlockHeader = header ∧ final = finalState
                (pruneLiveBlockHeaders newHeader.height options stored) ∧
              Reports data.liveHeaders tip newHeader stored.liveHeaders result := by
  intro hAll
  have hCheck :
      checksReport [firstHeader, secondHeader] heavyHeader (fun _ result =>
          result.added && result.isActiveTip && result.deactivatedHeaders.isEmpty &&
              result.reorgDepth ≠ 0) = true := by
    decide +kernel
  have hSafe := @insertAllSafely_of_append _ _
    [firstHeader, secondHeader] [sideHeader, sideTipHeader] insertAllSafely_sideTip
  rcases exists_of_checksReport hSafe hCheck with
    ⟨tip, nodes, lowest, _, result, final, hTree, -, hRun, hReport⟩
  simp only [Bool.and_eq_true, List.isEmpty_iff, decide_eq_true_eq] at hReport
  rcases hReport with ⟨⟨⟨hAdded, hTip⟩, hNone⟩, hDepth⟩
  rcases hAll _ _ _ _ _ _ _ _ hTree hRun hAdded hTip with ⟨_, _, -, -, hReports⟩
  exact hDepth (hReports.depth.mpr hNone)

end TsStack.Chaintracks
