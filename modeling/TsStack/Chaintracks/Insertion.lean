import TsStack.Chaintracks.Pruning
import TsStack.Chaintracks.Reorganization

/-
  What one insertion does to a live tree.

  An insertion keeps the tree when a header that becomes the
  active tip extends the active tip, or extends a header
  that is neither active nor marked as a tip and replaces no
  more headers than a traversal may visit.
-/

-- Insertions That Change the Tip

open List

namespace TsStack.Chaintracks

open ParentLink

open StateProgram (finalState)

/-
  A header that is accepted after `oneBack` has more work
  than the active tip and reaches an active ancestor.
-/
structure BecomesTip (options : Options) (data : Storage) (header : BlockHeader)
  (oneBack priorTip activeAncestor : LiveBlockHeader) :
  Prop where
  valid : validateIncomingHeader options.chain header = .ok header
  fresh : data.hashToHeaderId.any (·.1 = header.hash) = false
  found : data.liveHeaders.find? (·.hash = header.previousHash) = some oneBack
  height_eq : oneBack.height + 1 = header.height
  tip : findPriorTip data.liveHeaders oneBack = .ok (some priorTip)
  moreWork : ∃ work chainWork,
      convertBitsToWork header.bits options.chain = .ok work ∧
        addWork oneBack.chainWork work = .ok chainWork ∧
          isMoreWork chainWork priorTip.chainWork = true
  ancestor : findActiveAncestor data.liveHeaders oneBack = .ok (some activeAncestor)

/-
  A header that becomes the tip has a parent whose flags
  agree and replaces a chain that a traversal can visit.
-/
def InsertsSafely (options : Options) (data : Storage) (header : BlockHeader) : Prop :=
  ∀ oneBack priorTip activeAncestor,
    BecomesTip options data header oneBack priorTip activeAncestor →
      oneBack.isActive = oneBack.isChainTip ∧ priorTip.height ≤
          activeAncestor.height + MAX_STORAGE_TRAVERSAL

/- What an insertion leaves. -/
inductive InsertOutcome
  (options : Options) (data : Storage) (header : BlockHeader) : Storage → Prop where
| unchanged
    {final : Storage} (hLive : final.liveHeaders = data.liveHeaders)
    (hBulk : final.bulkFiles = data.bulkFiles)
    (hNone : final.lastActiveMinHeight = data.lastActiveMinHeight)
    (hMax : data.maxHeaderId ≤ final.maxHeaderId) :
    InsertOutcome options data header final
| first
    {final : Storage} {newHeader : LiveBlockHeader} {lastBulkFile : BulkFile}
    (hEmpty : data.liveHeaders = []) (hFile : data.bulkFiles.getLast? = some lastBulkFile)
    (hHash : newHeader.previousHash = lastBulkFile.lastHash)
    (hHeight : newHeader.height = lastBulkFile.firstHeight + lastBulkFile.count)
    (hTree : LiveTree final.liveHeaders final.maxHeaderId newHeader [] newHeader)
    (hBulk : final.bulkFiles = data.bulkFiles)
    (hNone : final.lastActiveMinHeight = data.lastActiveMinHeight) :
    InsertOutcome options data header final
| stored
    {stored final : Storage} {tip lowest priorTip priorLowest : LiveBlockHeader}
    {nodes priorNodes : List LiveBlockHeader}
    (hPrior : LiveTree data.liveHeaders data.maxHeaderId priorTip priorNodes priorLowest)
    (hTree : LiveTree stored.liveHeaders stored.maxHeaderId tip nodes lowest)
    (hLowest : lowest.height = priorLowest.height ∧ lowest.previousHash = priorLowest.previousHash)
    (hHeaders :
      stored.liveHeaders.map (·.toBlockHeader) = data.liveHeaders.map (·.toBlockHeader) ++ [header])
    (hBulk : stored.bulkFiles = data.bulkFiles)
    (hNone : stored.lastActiveMinHeight = data.lastActiveMinHeight)
    (hFinal :
      final = stored ∨ final = finalState (pruneLiveBlockHeaders tip.height options stored)) :
    InsertOutcome options data header final

namespace LiveTree

variable {live nodes : List LiveBlockHeader} {tip lowest : LiveBlockHeader} {maxHeaderId : Nat}

theorem activeTips_eq (hTree : LiveTree live maxHeaderId tip nodes lowest) :
  activeTips live = [tip] := by
  have hLive : live.Nodup := hTree.linked.nodup_ids.of_map
  have hPerm : (activeTips live).Perm [tip] := by
    apply (perm_ext_iff_of_nodup (hLive.filter _) (nodup_singleton tip)).mpr
    intro header
    rw [mem_singleton]
    exact hTree.mem_activeTips_iff header
  exact perm_singleton.mp hPerm

theorem findPriorTip_eq
  (hTree : LiveTree live maxHeaderId tip nodes lowest) {oneBack : LiveBlockHeader}
  (hMem : oneBack ∈ live) : findPriorTip live oneBack = .ok (some tip) := by
  unfold findPriorTip
  by_cases hTip : (oneBack.isActive && oneBack.isChainTip) = true
  · rw [if_pos hTip]
    rw [Bool.and_eq_true] at hTip
    rw [hTree.eq_tip hMem hTip.1 hTip.2]
  · rw [if_neg hTip, hTree.activeTips_eq]
    rfl

theorem lowest_eq
  (hTree : LiveTree live maxHeaderId tip nodes lowest) {tip' lowest' : LiveBlockHeader}
  {nodes' : List LiveBlockHeader} (hTree' : LiveTree live maxHeaderId tip' nodes' lowest') :
  lowest = lowest' := by
  have hIn := (hTree.chain.mem_iff lowest').mpr hTree'.chain.lowest_mem
  have hIn' := (hTree'.chain.mem_iff lowest).mpr hTree.chain.lowest_mem
  have hLe := hTree.chain.path.measure_bounds height hIn
  have hLe' := hTree'.chain.path.measure_bounds height hIn'
  exact hTree.chain.path.eq_of_measure_eq height (by simp) hIn (by omega)

end LiveTree

-- Storing the Header

theorem finalState_then_pure
  {α β : Type} (program : StorageM α) (value : β) (options : Options) (data : Storage) :
  finalState ((do
        let _ ← program
        pure value : StorageM β) options data) =
    finalState (program options data) := by
  rw [StateProgram.bind_run]
  cases program options data <;> rfl

/- Clearing the parent's mark in the storage. -/
theorem setHeader_clearTip {live : List LiveBlockHeader} {oneBack : LiveBlockHeader}
  (hNodup : (live.map (·.headerId)).Nodup) (hStore : oneBack ∈ live) :
  setHeader live { oneBack with isChainTip := false } = live.map (clearTip oneBack.headerId) := by
  have hReplace :
      setHeader live { oneBack with isChainTip := false } = live.map fun stored =>
        if stored.headerId = oneBack.headerId then { oneBack with isChainTip := false }
        else stored :=
    setHeader_of_mem hStore rfl
  rw [hReplace]
  apply map_congr_left
  intro stored hIn
  unfold clearTip
  by_cases hId : stored.headerId = oneBack.headerId
  · have hSame := inj_on_of_nodup_map hNodup hIn hStore hId
    rw [if_pos hId, if_pos hId, hSame]
  · rw [if_neg hId, if_neg hId]

theorem storeNewHeader_final
  (options : Options) (data : Storage) (newHeader oneBack : LiveBlockHeader)
  (result : InsertHeaderResult) (hNodup : (data.liveHeaders.map (·.headerId)).Nodup)
  (hFresh : ∀ stored ∈ data.liveHeaders, stored.headerId ≠ newHeader.headerId)
  (hStore : oneBack.isChainTip = true → oneBack ∈ data.liveHeaders)
  (hUnmarked : oneBack.isChainTip = false → ∀ stored ∈ data.liveHeaders,
        stored.headerId = oneBack.headerId → stored.isChainTip = false) :
  ∃ stored : Storage, stored.liveHeaders = extendedWith data.liveHeaders newHeader oneBack ∧
      stored.maxHeaderId = data.maxHeaderId ∧ stored.bulkFiles = data.bulkFiles ∧
          stored.lastActiveMinHeight = data.lastActiveMinHeight ∧
            finalState (storeNewHeader newHeader oneBack result options data) =
              if result.isActiveTip then
                finalState (pruneLiveBlockHeaders newHeader.height options stored)
              else
                stored := by
  have hCleared :
      ∀ live : List LiveBlockHeader, live = data.liveHeaders.map (clearTip oneBack.headerId) →
        setHeader live newHeader = extendedWith data.liveHeaders newHeader
          oneBack := by
    rintro _ rfl
    apply setHeader_of_fresh
    intro _ hIn
    rcases List.mem_map.mp hIn with ⟨stored, hOld, rfl⟩
    rw [(reflags_clearTip _).headerId]
    exact hFresh stored hOld
  have hRun :
      ∃ cleared : Storage, cleared.liveHeaders = data.liveHeaders.map (clearTip oneBack.headerId) ∧
        cleared.maxHeaderId = data.maxHeaderId ∧ cleared.bulkFiles = data.bulkFiles ∧
          cleared.lastActiveMinHeight = data.lastActiveMinHeight ∧
            clearParentTip oneBack options data = .ok () cleared := by
    unfold clearParentTip
    by_cases hTip : oneBack.isChainTip = true
    · refine ⟨{ data with
            liveHeaders := data.liveHeaders.map (clearTip oneBack.headerId) },
          rfl, rfl, rfl, rfl, ?_⟩
      rw [if_pos hTip]
      simp only [setLiveHeader, StateProgram.modify_run, setHeader_clearTip hNodup (hStore hTip)]
    · have hNo : oneBack.isChainTip = false := by simpa using hTip
      refine ⟨data, ?_, rfl, rfl, rfl, ?_⟩
      · symm
        rw [map_congr_left (g := id), List.map_id]
        intro stored hIn
        by_cases hId : stored.headerId = oneBack.headerId
        · exact clearTip_of_not_tip (hUnmarked hNo stored hIn hId)
        · exact clearTip_headerId_ne hId
      · rw [if_neg hTip]
        rfl
  rcases hRun with ⟨cleared, hLive, hMax, hBulk, hNone, hRun⟩
  by_cases hActTip : result.isActiveTip = true
  · refine ⟨{ cleared.store newHeader with
          tipHeaderId := newHeader.headerId },
        hCleared _ hLive, hMax, hBulk, hNone, ?_⟩
    unfold storeNewHeader
    simp only [StateProgram.bind_run, hRun, StateProgram.modify_run, hActTip, if_true]
    exact finalState_then_pure _ _ _ _
  · refine ⟨cleared.store newHeader, hCleared _ hLive, hMax, hBulk, hNone, ?_⟩
    unfold storeNewHeader
    simp only [StateProgram.bind_run, hRun, StateProgram.modify_run, hActTip]
    rfl

/- The record `insertHeader` stores. -/
def newLiveHeader (header : BlockHeader) (oneBack : LiveBlockHeader) (headerId chainWork : Nat)
  (isActiveTip : Bool) : LiveBlockHeader :=
  { header with
    headerId := headerId
    previousHeaderId := some oneBack.headerId
    chainWork := chainWork
    isChainTip := isActiveTip
    isActive := isActiveTip }

variable {options : Options} {data : Storage} {header : BlockHeader}
variable {oneBack priorTip : LiveBlockHeader} {work chainWork : Nat}

theorem insertAfter_eq (hHeight : oneBack.height + 1 = header.height)
  (hTip : findPriorTip data.liveHeaders oneBack = .ok (some priorTip))
  (hWork : convertBitsToWork header.bits options.chain = .ok work)
  (hChainWork : addWork oneBack.chainWork work = .ok chainWork) :
  insertAfter header oneBack options data = (prepareActiveTip header oneBack priorTip
        { priorTip := some priorTip
          isActiveTip := isMoreWork chainWork priorTip.chainWork } >>=
      fun prepared =>
        if prepared.1 then
          storeNewHeader (newLiveHeader header oneBack (data.maxHeaderId + 1) chainWork
              (isMoreWork chainWork priorTip.chainWork))
            oneBack prepared.2
        else pure prepared.2)
      options
      { data with maxHeaderId := data.maxHeaderId + 1 } := by
  unfold insertAfter
  have hEq : ¬ oneBack.height + 1 ≠ header.height := not_not_intro hHeight
  simp only [StateProgram.bind_run, StateProgram.read_run,
    StateProgram.get_run, hEq, if_false, hTip, hWork, hChainWork, StateProgram.ofExcept,
    StateProgram.pure_run, StateProgram.set_run]
  rfl

theorem extends_newLiveHeader
  (hHeight : oneBack.height + 1 = header.height) (hHash : oneBack.hash = header.previousHash)
  (hLe : header.height ≤ 0x7fffffff) (maxHeaderId chainWork : Nat) (isActiveTip : Bool) :
  Extends (newLiveHeader header oneBack (maxHeaderId + 1) chainWork isActiveTip)
    oneBack maxHeaderId where
  headerId_eq := rfl
  link := ⟨rfl, hHash.symm, hHeight.symm⟩
  height_le := hLe

-- Outcomes of Insertion After a Parent

variable {oneBack newHeader : LiveBlockHeader} {tip lowest : LiveBlockHeader}
variable {nodes : List LiveBlockHeader}

theorem InsertOutcome.nextId (options : Options) (data : Storage) (header : BlockHeader) :
  InsertOutcome options data header { data with maxHeaderId := data.maxHeaderId + 1 } :=
  .unchanged rfl rfl rfl (Nat.le_succ _)

theorem insertSide_outcome
  (moved : Storage) (hTree : LiveTree data.liveHeaders data.maxHeaderId tip nodes lowest)
  (hMem : oneBack ∈ data.liveHeaders) (hExt : Extends newHeader oneBack data.maxHeaderId)
  (hHeader : newHeader.toBlockHeader = header) (hInactive : newHeader.isActive = false)
  (hWork : newHeader.chainWork ≤ tip.chainWork) (hOneBack : oneBack ≠ tip)
  (hLive : moved.liveHeaders = data.liveHeaders) (hMax : moved.maxHeaderId = data.maxHeaderId + 1)
  (hBulk : moved.bulkFiles = data.bulkFiles)
  (hNone : moved.lastActiveMinHeight = data.lastActiveMinHeight) (result : InsertHeaderResult)
  (hSide : result.isActiveTip = false) :
  InsertOutcome options data header (finalState (storeNewHeader newHeader oneBack result options
        moved)) := by
  have hId := hExt.headerId_eq
  rw [← hLive] at hMem
  rcases storeNewHeader_final options moved newHeader oneBack
      result (by rw [hLive]; exact hTree.linked.nodup_ids)
      (by
        intro stored hStore
        rw [hLive] at hStore
        have hLe := hTree.linked.headerId_le stored hStore
        omega)
      (fun _ => hMem)
      (by
        intro hNo stored hStore hSame
        rw [hLive] at hStore hMem
        rw [hTree.linked.eq_of_headerId hStore hMem hSame]
        exact hNo) with
    ⟨stored, hStoreLive, hStoreMax, hStoreBulk, hStoreNone, hFinal⟩
  rw [hLive] at hMem hStoreLive
  have hStoreTree := hTree.insertSide hMem hExt hInactive hWork hOneBack
  rw [← hStoreLive, ← hMax, ← hStoreMax] at hStoreTree
  rw [hSide, if_neg Bool.false_ne_true] at hFinal
  have hReflags : Reflags id := fun header => ⟨header.isActive, header.isChainTip, rfl⟩
  have hHeaders := toBlockHeader_extendedWith hReflags data.liveHeaders newHeader oneBack
  rw [List.map_id, ← hStoreLive, hHeader] at hHeaders
  apply InsertOutcome.stored hTree hStoreTree ⟨rfl, rfl⟩ hHeaders
    (hStoreBulk.trans hBulk) (hStoreNone.trans hNone)
  exact .inl hFinal

theorem insertTip_outcome
  (moved : Storage) {newLowest : LiveBlockHeader} {newNodes : List LiveBlockHeader}
  {f : LiveBlockHeader → LiveBlockHeader}
  (hTree : LiveTree data.liveHeaders data.maxHeaderId tip nodes lowest)
  (hMem : oneBack ∈ data.liveHeaders) (hExt : Extends newHeader oneBack data.maxHeaderId)
  (hHeader : newHeader.toBlockHeader = header) (hReflags : Reflags f)
  (hTips : ∀ header, header.isChainTip = false → (f header).isChainTip = false)
  (hLive : moved.liveHeaders = data.liveHeaders.map f)
  (hStore : oneBack.isChainTip = true → oneBack ∈ moved.liveHeaders)
  (hNewTree : LiveTree (extendedWith (data.liveHeaders.map f) newHeader oneBack)
      (data.maxHeaderId + 1) newHeader newNodes newLowest)
  (hLowest : newLowest.height = lowest.height ∧ newLowest.previousHash = lowest.previousHash)
  (hMax : moved.maxHeaderId = data.maxHeaderId + 1) (hBulk : moved.bulkFiles = data.bulkFiles)
  (hNone : moved.lastActiveMinHeight = data.lastActiveMinHeight) (result : InsertHeaderResult)
  (hAct : result.isActiveTip = true) :
  InsertOutcome options data header (finalState (storeNewHeader newHeader oneBack result options
        moved)) := by
  have hMoved := hTree.linked.map hReflags hTips
  rw [← hLive] at hMoved
  have hId := hExt.headerId_eq
  rcases storeNewHeader_final options moved newHeader oneBack result hMoved.nodup_ids (by
        intro stored hIn
        have hLe := hMoved.headerId_le stored hIn
        omega)
      hStore
      (by
        intro hNo stored hIn hSame
        rw [hLive] at hIn
        rcases List.mem_map.mp hIn with ⟨old, hOld, rfl⟩
        rw [hReflags.headerId] at hSame
        apply hTips
        rw [hTree.linked.eq_of_headerId hOld hMem hSame]
        exact hNo) with
    ⟨stored, hStoreLive, hStoreMax, hStoreBulk, hStoreNone, hFinal⟩
  rw [← hLive, ← hStoreLive, ← hMax, ← hStoreMax] at hNewTree
  rw [hAct, if_pos rfl] at hFinal
  have hHeaders := toBlockHeader_extendedWith hReflags data.liveHeaders newHeader oneBack
  rw [← hLive, ← hStoreLive, hHeader] at hHeaders
  apply InsertOutcome.stored hTree hNewTree hLowest hHeaders
    (hStoreBulk.trans hBulk) (hStoreNone.trans hNone)
  exact .inr hFinal

-- Outcomes of Insertion

variable {oneBack tip lowest : LiveBlockHeader}

theorem insertActive_outcome {chainWork : Nat} {ancestor : LiveBlockHeader}
  (hTree : LiveTree data.liveHeaders data.maxHeaderId tip nodes lowest)
  (hMember : oneBack ∈ data.liveHeaders)
  (hExt : Extends (newLiveHeader header oneBack (data.maxHeaderId + 1) chainWork true)
      oneBack data.maxHeaderId)
  (hWork : tip.chainWork < chainWork)
  (hAnc : findActiveAncestor data.liveHeaders oneBack = .ok (some ancestor))
  (hFlags : oneBack.isActive = oneBack.isChainTip)
  (hLimit : tip.height ≤ ancestor.height + MAX_STORAGE_TRAVERSAL) (result : InsertHeaderResult)
  (hAct : result.isActiveTip = true) :
  InsertOutcome options data header (finalState ((applyReorganization oneBack ancestor >>=
        fun deactivatedHeaders =>
          storeNewHeader (newLiveHeader header oneBack (data.maxHeaderId + 1) chainWork true)
            oneBack
            { result with
              deactivatedHeaders := deactivatedHeaders })
        options
        { data with
          maxHeaderId := data.maxHeaderId + 1 })) := by
  by_cases hOneBackAct : oneBack.isActive = true
  · -- the parent is the tip: nothing is reorganized
    have hMarked : oneBack.isChainTip = true := by
      rw [← hFlags]
      exact hOneBackAct
    have hIsTip := hTree.eq_tip hMember hOneBackAct hMarked
    subst hIsTip
    have hSelf := findActiveAncestor_of_active hOneBackAct hAnc
    subst hSelf
    rcases hTree.extendTip hExt rfl rfl (Nat.le_of_lt hWork) with ⟨nodes', hNewTree⟩
    unfold applyReorganization
    simp only [if_true, StateProgram.bind_run, StateProgram.pure_run]
    have hReflags : Reflags id := fun header => ⟨header.isActive, header.isChainTip, rfl⟩
    rw [← List.map_id data.liveHeaders] at hNewTree
    apply insertTip_outcome
      { data with maxHeaderId := data.maxHeaderId + 1 }
      hTree hMember hExt rfl hReflags (fun _ hNo => hNo)
      (List.map_id _).symm (fun _ => hMember) hNewTree _ rfl
      rfl rfl { result with deactivatedHeaders := [] }
      hAct
    have hClear := reflags_clearTip ancestor.headerId
    exact ⟨hClear.height lowest, hClear.previousHash lowest⟩
  · -- the parent is inactive: its branch replaces the chain
    have hInactiveParent : oneBack.isActive = false := by simpa using hOneBackAct
    have hUnmarked : oneBack.isChainTip = false := by
      rw [← hFlags]
      exact hInactiveParent
    rcases findActiveAncestor_spec hMember hAnc with
      ⟨branch, hBranch, hInactive, hIn, hNow, hBranchLimit⟩
    have hOnChain := (hTree.chain.mem_iff ancestor).mpr ⟨hIn, hNow⟩
    rcases hTree.chain.path.split hOnChain with ⟨before, after, hNodes, hPre, hAfter⟩
    have hNotPre : ancestor ∉ before := by
      intro hMem
      have hLt := hPre.measure_lt height hMem
      exact Nat.lt_irrefl _ hLt
    have hLen := hPre.measure_eq height
    rcases hTree.reorganize hMember hExt rfl rfl (Nat.le_of_lt hWork) hNodes hAfter hBranch
        hInactive with
      ⟨nodes', hNewTree⟩
    have hRun := applyReorganization_eq options
      { data with maxHeaderId := data.maxHeaderId + 1 }
      hTree hNodes hPre hBranch hInactive hInactiveParent hOnChain hNotPre (by omega)
      hBranchLimit
    have hDeactivate := reflags_setActive (before.map (·.headerId)) false
    have hActivate := reflags_setActive (branch.map (·.headerId)) true
    have hReflags := hActivate.comp hDeactivate
    rw [List.map_map] at hNewTree hRun
    simp only [StateProgram.bind_run, hRun]
    apply insertTip_outcome
      { data with
        liveHeaders := data.liveHeaders.map (setActive (branch.map (·.headerId)) true ∘
          setActive (before.map (·.headerId)) false)
        maxHeaderId := data.maxHeaderId + 1 }
      hTree hMember hExt rfl hReflags _ rfl _ hNewTree _
      rfl rfl rfl
      { result with deactivatedHeaders := before } hAct
    · intro stored hNo
      rw [Function.comp_apply]
      unfold setActive
      split_ifs <;> exact hNo
    · intro hMarked
      rw [hUnmarked] at hMarked
      cases hMarked
    · have hClear := (reflags_clearTip oneBack.headerId).comp hReflags
      exact ⟨hClear.height lowest, hClear.previousHash lowest⟩

theorem insertPrepared_outcome (hTree : LiveTree data.liveHeaders data.maxHeaderId tip nodes lowest)
  (hMem : oneBack ∈ data.liveHeaders) (hExt : ∀ isActiveTip, Extends (newLiveHeader header oneBack
          (data.maxHeaderId + 1) chainWork isActiveTip)
        oneBack data.maxHeaderId)
  (hWork : convertBitsToWork header.bits options.chain = .ok work)
  (hChainWork : addWork oneBack.chainWork work = .ok chainWork)
  (hSafe : ∀ ancestor, isMoreWork chainWork tip.chainWork = true →
        findActiveAncestor data.liveHeaders oneBack = .ok (some ancestor) →
          oneBack.isActive = oneBack.isChainTip ∧ tip.height ≤
              ancestor.height + MAX_STORAGE_TRAVERSAL) :
  InsertOutcome options data header (finalState ((prepareActiveTip header oneBack tip
          { priorTip := some tip
            isActiveTip := isMoreWork chainWork tip.chainWork } >>=
        fun prepared =>
          if prepared.1 then
            storeNewHeader (newLiveHeader header oneBack (data.maxHeaderId + 1) chainWork
                (isMoreWork chainWork tip.chainWork))
              oneBack prepared.2
          else pure prepared.2)
        options
        { data with
          maxHeaderId := data.maxHeaderId + 1 })) := by
  have hPos := convertBitsToWork_pos hWork
  have hSum := (addWork_eq_ok_iff.mp hChainWork).2
  unfold prepareActiveTip
  cases hMore : isMoreWork chainWork tip.chainWork with
  | true =>
    have hLess : tip.chainWork < chainWork := by simpa [isMoreWork] using hMore
    simp only [if_true, StateProgram.bind_run, StateProgram.get_run]
    cases hAnc : findActiveAncestor data.liveHeaders oneBack with
    | error error => exact .nextId options data header
    | ok found =>
      cases found with
      | none => exact .nextId options data header
      | some ancestor =>
        rcases hSafe ancestor hMore hAnc with ⟨hFlags, hLimit⟩
        have hOut :=
          @insertActive_outcome options _ _ _ _ _ _ _ _ hTree hMem (hExt true) hLess
            hAnc hFlags hLimit
            { priorTip := some tip
              isActiveTip := true
              reorgDepth :=
                if (oneBack.isActive && oneBack.isChainTip) = true then 0
                else (min tip.height header.height : Nat) - (ancestor.height : Int) }
            rfl
        simp only [StateProgram.bind_run] at hOut
        simp only [StateProgram.ofExcept, StateProgram.pure_run, StateProgram.bind_run]
        cases hReorganize : applyReorganization oneBack ancestor options
          { data with
            maxHeaderId := data.maxHeaderId + 1 } with
        | ok deactivated moved =>
          rw [hReorganize] at hOut
          exact hOut
        | error error moved =>
          rw [hReorganize] at hOut
          exact hOut
  | false =>
    have hLe : chainWork ≤ tip.chainWork := by simpa [isMoreWork] using hMore
    have hNotTip : oneBack ≠ tip := by
      rintro rfl
      omega
    exact insertSide_outcome
      { data with maxHeaderId := data.maxHeaderId + 1 }
      hTree hMem (hExt false) rfl rfl hLe hNotTip
      rfl rfl rfl rfl { priorTip := some tip } rfl

/- An insertion after a stored parent. -/
theorem insertAfter_outcome (hTree : LiveTree data.liveHeaders data.maxHeaderId tip nodes lowest)
  (hValid : validateIncomingHeader options.chain header = .ok header)
  (hFresh : data.hashToHeaderId.any (·.1 = header.hash) = false)
  (hFound : data.liveHeaders.find? (·.hash = header.previousHash) = some oneBack)
  (hSafe : InsertsSafely options data header) :
  InsertOutcome options data header (finalState (insertAfter header oneBack options data)) := by
  have hMem := mem_of_find?_eq_some hFound
  have hHash : oneBack.hash = header.previousHash := by simpa using find?_some hFound
  have hTip := hTree.findPriorTip_eq hMem
  by_cases hHeight : oneBack.height + 1 = header.height
  · cases hWork : convertBitsToWork header.bits options.chain with
    | error error =>
      unfold insertAfter
      simp only [StateProgram.bind_run, StateProgram.read_run, StateProgram.get_run,
        hHeight, ne_eq, not_true_eq_false, if_false, hTip,
        hWork, StateProgram.ofExcept, StateProgram.pure_run]
      exact .unchanged rfl rfl rfl (Nat.le_refl _)
    | ok work =>
      cases hChainWork : addWork oneBack.chainWork work with
      | error error =>
        unfold insertAfter
        simp only [StateProgram.bind_run, StateProgram.read_run, StateProgram.get_run,
          hHeight, ne_eq, not_true_eq_false, if_false,
          hTip, hWork, hChainWork, StateProgram.ofExcept, StateProgram.pure_run]
        exact .unchanged rfl rfl rfl (Nat.le_refl _)
      | ok chainWork =>
        rw [insertAfter_eq hHeight hTip hWork hChainWork]
        apply insertPrepared_outcome hTree hMem (extends_newLiveHeader hHeight hHash
            (validateIncomingHeader_height_le hValid) _ _)
          hWork hChainWork
        intro ancestor hMore hAnc
        exact hSafe oneBack tip ancestor ⟨hValid, hFresh, hFound, hHeight, hTip,
          ⟨work, chainWork, hWork, hChainWork, hMore⟩, hAnc⟩
  · unfold insertAfter
    simp only [StateProgram.bind_run, StateProgram.read_run,
      StateProgram.get_run, ne_eq, hHeight, not_false_eq_true,
      if_true]
    exact .unchanged rfl rfl rfl (Nat.le_refl _)

theorem liveTree_singleton (newHeader : LiveBlockHeader) (hId : 1 ≤ newHeader.headerId)
  (hHeight : newHeader.height ≤ 0x7fffffff) (hPrev : newHeader.previousHeaderId = none)
  (hAct : newHeader.isActive = true) (hTip : newHeader.isChainTip = true) :
  LiveTree [newHeader] newHeader.headerId newHeader []
    newHeader := by
  constructor
  · constructor
    all_goals simp [hId, hHeight, hPrev]
  · constructor
    · exact .stop newHeader
    · intro stored
      constructor
      · intro hIn
        have hEq : stored = newHeader := by simpa using hIn
        rw [hEq]
        exact ⟨mem_singleton_self _, hAct⟩
      · exact fun hIn => hIn.1
    · exact hTip
    · intro stored hIn
      rw [mem_singleton.mp hIn]

theorem insertFirstHeader_outcome (hEmpty : data.liveHeaders = [])
  (hValid : validateIncomingHeader options.chain header = .ok header)
  (result : InsertHeaderResult) : InsertOutcome options data header (finalState
      (insertFirstHeader header result options data)) := by
  have hHeight := validateIncomingHeader_height_le hValid
  have hLen : ¬ data.liveHeaders.length ≠ 0 := by
    rw [hEmpty]
    simp
  unfold insertFirstHeader
  simp only [StateProgram.bind_run, StateProgram.read_run, StateProgram.get_run, hLen, if_false]
  cases hFile : data.bulkFiles.getLast? with
  | none => exact .unchanged rfl rfl rfl (Nat.le_refl _)
  | some lastBulkFile =>
    by_cases hFoll : header.previousHash = lastBulkFile.lastHash ∧ header.height =
      lastBulkFile.firstHeight + lastBulkFile.count
    · have hNot : ¬ (header.previousHash ≠ lastBulkFile.lastHash ∨
            header.height ≠ lastBulkFile.firstHeight + lastBulkFile.count) := by
        rintro (hNe | hNe)
        · exact hNe hFoll.1
        · exact hNe hFoll.2
      simp only [hNot, if_false, StateProgram.set_run, StateProgram.bind_run]
      cases hWork : convertBitsToWork header.bits options.chain with
      | error error => exact .nextId options data header
      | ok work =>
        simp only [StateProgram.ofExcept, StateProgram.pure_run]
        cases hChainWork : addWork lastBulkFile.lastChainWork work with
        | error error => exact .nextId options data header
        | ok chainWork =>
          simp only [StateProgram.pure_run, StateProgram.modify_run]
          let newHeader : LiveBlockHeader :=
            { header with
              headerId := data.maxHeaderId + 1
              previousHeaderId := none
              chainWork := chainWork
              isChainTip := true
              isActive := true }
          have hStore : setHeader data.liveHeaders newHeader = [newHeader] := by
            rw [hEmpty]
            rfl
          have hTree := liveTree_singleton newHeader (Nat.succ_le_succ (Nat.zero_le _)) hHeight
            rfl rfl rfl
          rw [← hStore] at hTree
          exact .first hEmpty hFile hFoll.1 hFoll.2 hTree rfl rfl
    · have hNe :
          header.previousHash ≠ lastBulkFile.lastHash ∨ header.height ≠ lastBulkFile.firstHeight +
            lastBulkFile.count := by
        by_contra hNo
        rw [not_or, not_not, not_not] at hNo
        exact hFoll hNo
      simp only [hNe, if_true]
      exact .unchanged rfl rfl rfl (Nat.le_refl _)

theorem insertFirstHeader_of_live (hLive : data.liveHeaders ≠ []) (result : InsertHeaderResult) :
  insertFirstHeader header result options data = .ok (false, result) data := by
  unfold insertFirstHeader
  have hLen : data.liveHeaders.length ≠ 0 := by rwa [ne_eq, length_eq_zero_iff]
  simp only [StateProgram.bind_run, StateProgram.read_run,
    StateProgram.get_run, hLen, ne_eq, not_false_eq_true,
    if_true]
  rfl

/- What an insertion leaves, from what it leaves after a parent and what it leaves without one. -/
theorem insertHeader_outcome_of
  (hAfter : ∀ oneBack, validateIncomingHeader options.chain header = .ok header →
        data.hashToHeaderId.any (·.1 = header.hash) = false →
          data.liveHeaders.find? (·.hash = header.previousHash) = some oneBack →
          InsertOutcome options data header (finalState
              (insertAfter header oneBack options data)))
  (hFst : validateIncomingHeader options.chain header = .ok header →
      InsertOutcome options data header (finalState (insertFirstHeader header {} options data))) :
  InsertOutcome options data header (finalState (insertHeader header options data)) := by
  unfold insertHeader
  simp only [StateProgram.bind_run, StateProgram.read_run]
  cases hValidate : validateIncomingHeader options.chain header with
  | error error => exact .unchanged rfl rfl rfl (Nat.le_refl _)
  | ok accepted =>
    have hSame := validateIncomingHeader_spec hValidate
    subst hSame
    simp only [StateProgram.ofExcept, StateProgram.pure_run]
    by_cases hMock : options.chain = .mock
    · simp only [hMock, if_true]
      exact .unchanged rfl rfl rfl (Nat.le_refl _)
    · simp only [hMock, if_false, StateProgram.bind_run, StateProgram.get_run]
      cases hFresh : data.hashToHeaderId.any (·.1 = accepted.hash) with
      | true => exact .unchanged rfl rfl rfl (Nat.le_refl _)
      | false =>
        simp only [Bool.false_eq_true, if_false]
        cases hFound : data.liveHeaders.find? (·.hash = accepted.previousHash) with
        | some oneBack => exact hAfter oneBack hValidate hFresh hFound
        | none =>
          have hOut := hFst hValidate
          simp only [StateProgram.bind_run]
          cases hRun : insertFirstHeader accepted {} options data with
          | error error final =>
            rw [hRun] at hOut
            exact hOut
          | ok value final =>
            rw [hRun] at hOut
            rcases value with ⟨inserted, result⟩
            cases inserted <;> exact hOut

theorem insertHeader_outcome (hTree : LiveTree data.liveHeaders data.maxHeaderId tip nodes lowest)
  (hSafe : InsertsSafely options data header) :
  InsertOutcome options data header (finalState (insertHeader header options data)) := by
  apply insertHeader_outcome_of
  · intro oneBack hValid hFresh hFound
    exact insertAfter_outcome hTree hValid hFresh hFound hSafe
  · intro _
    have hLive : data.liveHeaders ≠ [] := ne_nil_of_mem hTree.chain.tip_mem.1
    rw [insertFirstHeader_of_live hLive]
    exact .unchanged rfl rfl rfl (Nat.le_refl _)

theorem insertHeader_outcome_of_empty (hEmpty : data.liveHeaders = []) :
  InsertOutcome options data header (finalState (insertHeader header options data)) := by
  apply insertHeader_outcome_of
  · intro oneBack _ _ hFound
    rw [hEmpty] at hFound
    cases hFound
  · intro hValid
    exact insertFirstHeader_outcome hEmpty hValid {}

end TsStack.Chaintracks
