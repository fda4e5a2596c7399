import TsStack.Chaintracks.LiveTree

/-
  What the walks of a reorganization find and change.

  Key theorems include:
    * `applyReorganization_eq`
-/

-- Visits and Links

open List

namespace TsStack.Chaintracks

variable {header ancestor : LiveBlockHeader} {nodes live : List LiveBlockHeader}
  {visited : List Nat}

theorem recordTraversalVisit_eq_ok {visits : List Nat} {operation : String}
  (hVisit : recordTraversalVisit visited header operation = .ok visits) :
  visits = header.headerId :: visited ∧ visited.length < MAX_STORAGE_TRAVERSAL := by
  rcases bind_eq_ok_iff.mp hVisit with ⟨_, _, hVisit⟩
  rcases bind_eq_ok_iff.mp hVisit with ⟨_, _, hVisit⟩
  split_ifs at hVisit with hSeen hLimit
  cases hVisit
  exact ⟨rfl, Nat.lt_of_not_le hLimit⟩

theorem recordTraversalVisit_of_fresh
  (hId : 1 ≤ header.headerId)
  (hHeight : header.height ≤ 0x7fffffff) (hFresh : header.headerId ∉ visited)
  (hLimit : visited.length < MAX_STORAGE_TRAVERSAL) (operation : String) :
  recordTraversalVisit visited header operation = .ok (header.headerId :: visited) := by
  unfold recordTraversalVisit validateHeaderId validateHeight
  rw [if_neg (Nat.not_lt.mpr hId), if_neg (Nat.not_lt.mpr hHeight), if_neg hFresh,
    if_neg (Nat.not_le.mpr hLimit)]
  rfl

theorem validateStoredParentLink_eq_ok
  {child parent : LiveBlockHeader} (hValid : validateStoredParentLink child parent = .ok ()) :
  ParentLink child parent := by
  rcases bind_eq_ok_iff.mp hValid with ⟨_, _, hValid⟩
  rcases bind_eq_ok_iff.mp hValid with ⟨_, _, hValid⟩
  split_ifs at hValid with hLink
  simp only [not_or, not_not] at hLink
  exact hLink

theorem validateStoredParentLink_of_link
  {child parent : LiveBlockHeader} (hChild : 1 ≤ child.headerId) (hParent : 1 ≤ parent.headerId)
  (hLink : ParentLink child parent) : validateStoredParentLink child parent = .ok () := by
  unfold validateStoredParentLink validateHeaderId
  rw [if_neg (Nat.not_lt.mpr hChild), if_neg (Nat.not_lt.mpr hParent)]
  rcases hLink with ⟨hId, hHash, hHeight⟩
  simp [hId, hHash, hHeight]

variable {live : List LiveBlockHeader} {maxHeaderId : Nat}

theorem findActiveAncestorFrom_spec {turns : Nat} (hMem : header ∈ live)
  (hVisited : visited.length ≤ MAX_STORAGE_TRAVERSAL)
  (hFind : findActiveAncestorFrom live turns visited header = .ok (some ancestor)) :
  ∃ branch, RelationPath ParentLink header branch ancestor ∧
      (∀ node ∈ branch, node ∈ live ∧ node.isActive = false) ∧
        ancestor ∈ live ∧ ancestor.isActive = true ∧ visited.length + branch.length ≤
            MAX_STORAGE_TRAVERSAL := by
  induction turns generalizing visited header with
  | zero => cases hFind
  | succ turns ih =>
    unfold findActiveAncestorFrom at hFind
    by_cases hAct : header.isActive = true
    · rw [if_pos hAct] at hFind
      cases hFind
      exact ⟨[], .stop _, by simp, hMem, hAct, by simpa using hVisited⟩
    · rw [if_neg hAct] at hFind
      rcases bind_eq_ok_iff.mp hFind with ⟨visits, hVisit, hRest⟩
      rcases recordTraversalVisit_eq_ok hVisit with ⟨rfl, hLimit⟩
      cases hPrev : header.previousHeaderId with
      | none => simp [hPrev] at hRest
      | some previousHeaderId =>
        simp only [hPrev] at hRest
        cases hGet : getHeader live previousHeaderId with
        | none => simp [hGet] at hRest
        | some previousHeader =>
          simp only [hGet] at hRest
          rcases bind_eq_ok_iff.mp hRest with ⟨_, hValid, hFind⟩
          have hLink := validateStoredParentLink_eq_ok hValid
          have hVisits : (header.headerId :: visited).length ≤
                MAX_STORAGE_TRAVERSAL := by
            rw [length_cons]
            omega
          rcases ih (mem_of_getHeader hGet).1 hVisits hFind with
            ⟨branch, hPath, hBranch, hIn, hNow, hLen⟩
          refine ⟨header :: branch, .step hLink hPath, ?_, hIn, hNow, ?_⟩
          · intro node hNode
            rcases mem_cons.mp hNode with rfl | hTail
            · exact ⟨hMem, by simpa using hAct⟩
            · exact hBranch node hTail
          · rw [length_cons] at hLen ⊢
            omega

theorem findActiveAncestor_spec (hMem : header ∈ live)
  (hFind : findActiveAncestor live header = .ok (some ancestor)) :
  ∃ branch, RelationPath ParentLink header branch ancestor ∧
      (∀ node ∈ branch, node ∈ live ∧ node.isActive = false) ∧
        ancestor ∈ live ∧ ancestor.isActive = true ∧ branch.length ≤ MAX_STORAGE_TRAVERSAL := by
  rcases findActiveAncestorFrom_spec hMem (Nat.zero_le _) hFind with
    ⟨branch, hPath, hBranch, hIn, hAct, hLen⟩
  exact ⟨branch, hPath, hBranch, hIn, hAct, by simpa using hLen⟩

theorem findActiveAncestor_of_active (hAct : header.isActive = true)
  (hFind : findActiveAncestor live header = .ok (some ancestor)) : ancestor = header := by
  unfold findActiveAncestor findActiveAncestorFrom at hFind
  rw [if_pos hAct] at hFind
  cases hFind
  rfl

-- Walking a Branch

theorem setActive_cons (headerId : Nat) (ids : List Nat) (value : Bool) (header : LiveBlockHeader) :
  setActive ids value (setActive [headerId] value header) =
    setActive (headerId :: ids) value header := by
  have hId := (reflags_setActive [headerId] value).headerId header
  unfold setActive at hId ⊢
  by_cases hFst : header.headerId = headerId
  · by_cases hRest : header.headerId ∈ ids
    · simp [hFst, hFst ▸ hRest]
    · simp [hFst, hFst ▸ hRest]
  · simp [hFst]

/- Setting one header's flag in the storage. -/
theorem setHeader_setActive (hGet : getHeader live header.headerId = some header)
  (hUnique : ∀ stored ∈ live, stored.headerId = header.headerId → stored = header) (value : Bool) :
  setHeader live { header with isActive := value } =
    live.map (setActive [header.headerId] value) := by
  have hReplace :
      setHeader live { header with isActive := value } = live.map fun stored =>
        if stored.headerId = header.headerId then { header with isActive := value }
        else stored :=
    setHeader_of_mem (mem_of_getHeader hGet).1 rfl
  rw [hReplace]
  apply map_congr_left
  intro stored hStore
  unfold setActive
  by_cases hId : stored.headerId = header.headerId
  · rw [if_pos hId, if_pos (by simp [hId]), hUnique stored hStore hId]
  · rw [if_neg hId, if_neg (by simp [hId])]

theorem getHeader_setActive_of_ne {headerId other : Nat} (value : Bool)
  (hNe : other ≠ headerId) (hGet : getHeader live other = some header) :
  getHeader (live.map (setActive [headerId] value)) other = some header := by
  have hSame : setActive [headerId] value header = header := by
    apply if_neg
    rw [(mem_of_getHeader hGet).2]
    simpa using hNe
  unfold getHeader at hGet ⊢
  rw [find?_map]
  have hKey : ((fun stored : LiveBlockHeader => decide (stored.headerId = other)) ∘
        setActive [headerId] value) =
        fun stored => decide (stored.headerId = other) := by
    funext stored
    rw [Function.comp_apply, (reflags_setActive [headerId] value).headerId]
  rw [hKey, hGet, Option.map_some, hSame]

structure Walkable (live : List LiveBlockHeader) (nodes : List LiveBlockHeader)
  (last : LiveBlockHeader) : Prop where
  nodup : (live.map (·.headerId)).Nodup
  stored : ∀ node ∈ nodes ++ [last], node ∈ live
  headerId_pos : ∀ node ∈ nodes ++ [last], 1 ≤ node.headerId
  height_le : ∀ node ∈ nodes ++ [last], node.height ≤ 0x7fffffff
  distinct : ((nodes ++ [last]).map (·.headerId)).Nodup

variable {last : LiveBlockHeader}

theorem Walkable.tail (hWalk : Walkable live (header :: nodes) last) (value : Bool) :
  Walkable (live.map (setActive [header.headerId] value)) nodes last := by
  have hReflags := reflags_setActive [header.headerId] value
  have hDist := hWalk.distinct
  rw [cons_append, map_cons, nodup_cons] at hDist
  constructor
  · rw [List.map_map]
    have hIds :
        ((·.headerId) ∘ setActive [header.headerId] value : LiveBlockHeader → Nat) = (·.headerId) :=
      funext hReflags.headerId
    rw [hIds]
    exact hWalk.nodup
  · intro node hNode
    have hNe : node.headerId ∉ [header.headerId] := by
      rw [mem_singleton]
      intro hEq
      apply hDist.1
      rw [← hEq]
      exact List.mem_map_of_mem hNode
    have hSame : setActive [header.headerId] value node = node := if_neg hNe
    rw [← hSame]
    exact List.mem_map_of_mem (hWalk.stored node (mem_cons_of_mem _ hNode))
  · intro node hNode
    exact hWalk.headerId_pos node (mem_cons_of_mem _ hNode)
  · intro node hNode
    exact hWalk.height_le node (mem_cons_of_mem _ hNode)
  · exact hDist.2

theorem Walkable.getHeader_eq {node : LiveBlockHeader}
  (hWalk : Walkable live nodes last) (hNode : node ∈ nodes ++ [last]) :
  getHeader live node.headerId = some node ∧ ∀ stored ∈ live,
      stored.headerId = node.headerId → stored = node := by
  have hUnique : ∀ stored ∈ live, stored.headerId = node.headerId → stored = node :=
    fun stored hStore hId =>
      inj_on_of_nodup_map hWalk.nodup hStore (hWalk.stored node hNode) hId
  refine ⟨?_, hUnique⟩
  cases hGet : getHeader live node.headerId with
  | none =>
    have hNone := find?_eq_none.mp hGet node (hWalk.stored node hNode)
    simp at hNone
  | some found =>
    rcases mem_of_getHeader hGet with ⟨hFound, hId⟩
    rw [hUnique found hFound hId]

theorem Walkable.ne_of_cons {node : LiveBlockHeader}
  (hWalk : Walkable live (header :: nodes) last) (hNode : node ∈ nodes ++ [last]) :
  node.headerId ≠ header.headerId := by
  have hDist := hWalk.distinct
  rw [cons_append, map_cons, nodup_cons] at hDist
  intro hEq
  apply hDist.1
  rw [← hEq]
  exact List.mem_map_of_mem hNode

variable (walk : BranchWalk)

theorem BranchWalk.run_step {parent : LiveBlockHeader} {turns : Nat}
  {visits : List Nat} {options : Options} {data : Storage}
  (hLink : ParentLink header parent) (hParent : parent ∈ nodes ++ [ancestor])
  (hWalk : Walkable data.liveHeaders (header :: nodes) ancestor)
  (hVisit : recordTraversalVisit visited header walk.operation = .ok visits) :
  walk.run ancestor (turns + 1) visited header options data =
    (walk.run ancestor turns visits parent >>= fun walked =>
      pure (header :: walked)) options
      { data with
        liveHeaders := data.liveHeaders.map (setActive [header.headerId] walk.isActive) } := by
  have hHead : header ∈ header :: nodes ++ [ancestor] := mem_cons_self
  have hIn := mem_cons_of_mem header hParent
  have hNotLast : header.headerId ≠ ancestor.headerId := (hWalk.ne_of_cons (by simp)).symm
  have hStore := hWalk.getHeader_eq hHead
  have hSet := setHeader_setActive hStore.1 hStore.2 walk.isActive
  have hGet :=
    getHeader_setActive_of_ne walk.isActive (hWalk.ne_of_cons hParent) (hWalk.getHeader_eq hIn).1
  have hValid := validateStoredParentLink_of_link (hWalk.headerId_pos header hHead)
    (hWalk.headerId_pos parent hIn) hLink
  conv_lhs => unfold BranchWalk.run
  rw [if_neg hNotLast, hVisit]
  simp only [StateProgram.ofExcept, setLiveHeader, StateProgram.bind_run, StateProgram.pure_run,
    StateProgram.modify_run, hSet]
  simp only [hLink.1, StateProgram.bind_run,
    StateProgram.get_run, hGet, hValid, StateProgram.pure_run]

theorem BranchWalk.run_eq
  (hPath : RelationPath ParentLink header nodes ancestor) {turns : Nat} {visited : List Nat}
  (hTurns : nodes.length < turns) (hLimit : visited.length + nodes.length ≤ MAX_STORAGE_TRAVERSAL)
  (hFresh : ∀ node ∈ nodes, node.headerId ∉ visited) (options : Options) (data : Storage)
  (hWalk : Walkable data.liveHeaders nodes ancestor) :
  walk.run ancestor turns visited header options data = .ok nodes
      { data with
        liveHeaders := data.liveHeaders.map (setActive (nodes.map (·.headerId))
              walk.isActive) } := by
  induction hPath generalizing turns visited data with
  | stop ancestor =>
    cases turns with
    | zero => cases hTurns
    | succ turns =>
      have hNone : setActive [] walk.isActive = id := by
        funext stored
        exact if_neg (by simp)
      unfold BranchWalk.run
      rw [if_pos rfl, map_nil, hNone, List.map_id]
      rfl
  | @step header parent ancestor nodes hLink hPath ih =>
    cases turns with
    | zero => cases hTurns
    | succ turns =>
      rw [length_cons] at hTurns hLimit
      have hHead : header ∈ header :: nodes ++ [ancestor] := mem_cons_self
      have hVisit := recordTraversalVisit_of_fresh (hWalk.headerId_pos header hHead)
        (hWalk.height_le header hHead)
        (hFresh header mem_cons_self) (by omega) walk.operation
      have hRest :=
        @ih turns (header.headerId :: visited) (by omega) (by
            rw [length_cons]
            omega)
          (by
            intro node hNode hIn
            rcases mem_cons.mp hIn with hEq | hSeen
            · exact hWalk.ne_of_cons (mem_append_left _ hNode) hEq
            · exact hFresh node (mem_cons_of_mem _ hNode) hSeen)
          { data with
            liveHeaders := data.liveHeaders.map (setActive [header.headerId] walk.isActive) }
          (hWalk.tail walk.isActive)
      rw [walk.run_step hLink hPath.start_mem hWalk hVisit]
      simp only [StateProgram.bind_run, hRest, StateProgram.pure_run, List.map_map]
      have hComp : setActive (nodes.map (·.headerId)) walk.isActive ∘
              setActive [header.headerId] walk.isActive =
            setActive ((header :: nodes).map (·.headerId))
              walk.isActive := by
        funext stored
        exact setActive_cons _ _ _ stored
      rw [hComp]

/- A walk that returns has stayed within the limit. -/
theorem BranchWalk.length_le_of_run {walked : List LiveBlockHeader}
  (hPath : RelationPath ParentLink header nodes ancestor) {turns : Nat} {visited : List Nat}
  (hCount : visited.length + turns = MAX_STORAGE_TRAVERSAL + 1)
  (hVisited : visited.length ≤ MAX_STORAGE_TRAVERSAL) {options : Options} {data final : Storage}
  (hWalk : Walkable data.liveHeaders nodes ancestor)
  (hRun : walk.run ancestor turns visited header options data = .ok walked final) :
  visited.length + nodes.length ≤ MAX_STORAGE_TRAVERSAL := by
  induction hPath generalizing turns visited data walked final with
  | stop ancestor => exact hVisited
  | @step header parent ancestor nodes hLink hPath ih =>
    cases turns with
    | zero => omega
    | succ turns =>
      cases hVisit : recordTraversalVisit visited header walk.operation with
      | error error =>
        have hNotLast : header.headerId ≠ ancestor.headerId := (hWalk.ne_of_cons (by simp)).symm
        unfold BranchWalk.run at hRun
        rw [if_neg hNotLast, hVisit] at hRun
        cases hRun
      | ok visits =>
        rcases recordTraversalVisit_eq_ok hVisit with ⟨rfl, hLess⟩
        rw [walk.run_step hLink hPath.start_mem hWalk hVisit, StateProgram.bind_run] at hRun
        split at hRun
        · rename_i rest moved hRest
          have hLen := ih (by
              rw [length_cons]
              omega)
            (by
              rw [length_cons]
              omega)
            (hWalk.tail walk.isActive) hRest
          rw [length_cons] at hLen ⊢
          omega
        · cases hRun

-- Replacing the Active Chain

theorem LinkedHeaders.walkable {maxHeaderId : Nat} {first : LiveBlockHeader}
  (hLinked : LinkedHeaders live maxHeaderId) (hPath : RelationPath ParentLink first nodes last)
  (hStore : ∀ node ∈ nodes ++ [last], node ∈ live) : Walkable live nodes last where
  nodup := hLinked.nodup_ids
  stored := hStore
  headerId_pos := fun node hNode => hLinked.headerId_pos node (hStore node hNode)
  height_le := fun node hNode => hLinked.height_le node (hStore node hNode)
  distinct := by
    apply (hPath.nodup ParentLink.height).map_on
    intro left hLeft right hRight hId
    exact hLinked.eq_of_headerId (hStore left hLeft) (hStore right hRight) hId

theorem LiveTree.find_tip {maxHeaderId : Nat} {tip lowest : LiveBlockHeader}
  (hTree : LiveTree live maxHeaderId tip nodes lowest) :
  live.find? (fun candidate => candidate.isChainTip && candidate.isActive) = some tip := by
  cases hFind : live.find? (fun candidate => candidate.isChainTip && candidate.isActive) with
  | none =>
    have hNone := find?_eq_none.mp hFind tip hTree.chain.tip_mem.1
    simp [hTree.chain.isChainTip, hTree.chain.tip_mem.2] at hNone
  | some found =>
    have hFlags := find?_some hFind
    rw [Bool.and_eq_true] at hFlags
    rw [hTree.eq_tip (mem_of_find?_eq_some hFind) hFlags.2 hFlags.1]

theorem applyReorganization_eq {maxHeaderId : Nat}
  {tip lowest oneBack : LiveBlockHeader} {before after branch : List LiveBlockHeader}
  (options : Options) (data : Storage)
  (hTree : LiveTree data.liveHeaders maxHeaderId tip nodes lowest)
  (hNodes : nodes = before ++ after) (hPre : RelationPath ParentLink tip before ancestor)
  (hBranch : RelationPath ParentLink oneBack branch ancestor)
  (hInactive : ∀ header ∈ branch, header ∈ data.liveHeaders ∧ header.isActive = false)
  (hOneBack : oneBack.isActive = false) (hAnc : ancestor ∈ nodes ++ [lowest])
  (hAncPre : ancestor ∉ before) (hPreLimit : before.length ≤ MAX_STORAGE_TRAVERSAL)
  (hBranchLimit : branch.length ≤ MAX_STORAGE_TRAVERSAL) :
  applyReorganization oneBack ancestor options data = .ok before
      { data with
        liveHeaders := (data.liveHeaders.map
            (setActive (before.map (·.headerId)) false)).map
            (setActive (branch.map (·.headerId)) true) } := by
  have hAncIn := (hTree.chain.mem_iff ancestor).mp hAnc
  have hPreIn : ∀ node ∈ before, node ∈ data.liveHeaders ∧ node.isActive = true := by
    intro node hNode
    apply (hTree.chain.mem_iff node).mp
    rw [hNodes]
    simp [hNode]
  have hPreWalk : Walkable data.liveHeaders before ancestor := by
    apply hTree.linked.walkable hPre
    intro node hNode
    rcases mem_append.mp hNode with hNode | hNode
    · exact (hPreIn node hNode).1
    · rw [mem_singleton.mp hNode]
      exact hAncIn.1
  have hNe : ancestor.headerId ≠ oneBack.headerId := by
    intro hId
    have hBranchCons : branch ≠ [] := by
      rintro rfl
      rw [hBranch.eq_of_nil, hAncIn.2] at hOneBack
      cases hOneBack
    rcases hBranch.exists_cons hBranchCons with ⟨_, _, rfl, _, _⟩
    have hSame :=
      hTree.linked.eq_of_headerId hAncIn.1 (hInactive oneBack mem_cons_self).1 hId
    rw [← hSame, hAncIn.2] at hOneBack
    cases hOneBack
  have hReflags := reflags_setActive (before.map (·.headerId)) false
  have hMoved : LinkedHeaders (data.liveHeaders.map (setActive (before.map (·.headerId)) false))
        maxHeaderId := by
    apply hTree.linked.map hReflags
    intro header hNo
    unfold setActive
    split_ifs <;> exact hNo
  have hBranchWalk : Walkable (data.liveHeaders.map (setActive (before.map (·.headerId)) false))
        branch ancestor := by
    apply hMoved.walkable hBranch
    intro node hNode
    have hStore : node ∈ data.liveHeaders ∧ node ∉ before := by
      rcases mem_append.mp hNode with hNode | hNode
      · refine ⟨(hInactive node hNode).1, fun hIn => ?_⟩
        have hAct := (hPreIn node hIn).2
        rw [(hInactive node hNode).2] at hAct
        cases hAct
      · rw [mem_singleton.mp hNode]
        exact ⟨hAncIn.1, hAncPre⟩
    have hSame : setActive (before.map (·.headerId)) false node =
          node := by
      apply if_neg
      intro hId
      rcases List.mem_map.mp hId with ⟨other, hOther, hEq⟩
      have hOtherEq := hTree.linked.eq_of_headerId (hPreIn other hOther).1 hStore.1 hEq
      rw [hOtherEq] at hOther
      exact hStore.2 hOther
    rw [← hSame]
    exact List.mem_map_of_mem hStore.1
  have hDeactivated : deactivation.run ancestor (MAX_STORAGE_TRAVERSAL + 1) [] tip options data =
        .ok before
          { data with
            liveHeaders := data.liveHeaders.map (setActive (before.map (·.headerId)) false) } :=
    deactivation.run_eq hPre (Nat.lt_succ_of_le hPreLimit)
      (by simpa using hPreLimit) (by simp) options data hPreWalk
  have hActivated : activation.run ancestor (MAX_STORAGE_TRAVERSAL + 1) [] oneBack options
          { data with
            liveHeaders := data.liveHeaders.map (setActive (before.map (·.headerId)) false) } =
        .ok branch
          { data with
            liveHeaders := (data.liveHeaders.map
              (setActive (before.map (·.headerId)) false)).map
              (setActive (branch.map (·.headerId)) true) } :=
    activation.run_eq hBranch (Nat.lt_succ_of_le hBranchLimit)
      (by simpa using hBranchLimit) (by simp) options _ hBranchWalk
  unfold applyReorganization
  rw [if_neg hNe]
  simp only [StateProgram.bind_run, StateProgram.get_run, hTree.find_tip, hDeactivated, hActivated]
  rfl

end TsStack.Chaintracks
