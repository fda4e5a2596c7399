import TsStack.Wallet.SyncProcess

/-
  A sync pass over a source that does not change ends, and
  hands each row of the filter to a merge exactly once, in
  dependency order.
-/

-- One Page

open List

namespace TsStack.Wallet

open SyncChunk

variable {source : SyncSource} {localIds : LocalIds}

/- The rows that a pass still has to hand to merges. -/
def EntitySyncState.remaining
  (state : EntitySyncState) (source : SyncSource) : EntityName → List SyncEntity :=
  remainingRows source state.when fun name => (state.syncMap name).count

structure PageSpec
  (source : SyncSource) (localIds : LocalIds) (state : EntitySyncState) (chunk : SyncChunk)
  (last : EntitySyncState.ProcessState) (result : EntitySyncState.ProcessResult) : Prop where
  user :
    chunk.user = (if state.when.all fun since => since < source.user.updatedAt then some source.user
      else none)
  shape : ChunkShape (state.remaining source) chunk.stateArray EntityName.all
  processes : EntitySyncState.Processes localIds chunk EntityName.all
      { syncMap := state.syncMap
        maxUpdatedAt := (chunk.user.filter
            (EntitySyncState.mergesUser state.user)).map SyncUser.updatedAt
        done := true
        calls := [] }
      last result.calls
  done_eq : result.done = chunk.isEmptyOn EntityName.all
  result_user :
    result.state.user = (chunk.user.map (EntitySyncState.mergeUser state.user)).getD state.user
  ended : result.done = true → result.state.when = last.maxUpdatedAt ∧
        result.state.syncMap = fun name => { last.syncMap name with count := 0 }
  goesOn :
    result.done = false → result.state.when = state.when ∧ result.state.syncMap = last.syncMap

theorem syncPage_spec
  (limits : PageLimits) (state : EntitySyncState) (hAgrees : localIds.Agrees state.syncMap) :
  ∃ chunk last result, syncPage source localIds limits state = .ok result ∧
      PageSpec source localIds state chunk last result := by
  rcases @getSyncChunk_shape source (state.makeRequestSyncChunkArgs limits)
      (fun name => (state.syncMap name).count) rfl with
    ⟨chunk, hChunk, hUser, hShape⟩
  rcases state.processSyncChunk_spec chunk hAgrees with
    ⟨result, last, calls, hProc, hProcesses, hCalls, hDone, hResUser, hEnded, hGoesOn⟩
  refine ⟨chunk, last, result, ?_, hUser, hShape, ?_, hDone, hResUser, hEnded, hGoesOn⟩
  · unfold syncPage
    rw [hChunk]
    dsimp only [bind, Except.bind]
    rw [hProc]
    rfl
  · rw [hCalls]
    exact hProcesses

variable
    {remaining : EntityName → List SyncEntity} {chunk : SyncChunk} {names : List EntityName}

section

variable (hShape : ChunkShape remaining chunk.stateArray names)
include hShape

theorem ChunkShape.isEmptyOn_iff :
  chunk.isEmptyOn names = true ↔ ∀ name ∈ names, remaining name = [] := by
  unfold isEmptyOn
  rw [List.all_eq_true]
  cases hShape with
  | whole hAll =>
    constructor
    · intro hEmpty name hName
      have hArray := hEmpty name hName
      rw [hAll name hName] at hArray
      exact List.isEmpty_iff.mp hArray
    · intro hNil name hName
      rw [hAll name hName, hNil name hName]
      rfl
  | cut before name after n hNames hPos hBound hPre
      hName hAfter =>
      have hMem : name ∈ names := by
        rw [hNames]
        exact mem_append_right _ mem_cons_self
      constructor
      · intro hEmpty
        have hArray := hEmpty name hMem
        rw [hName] at hArray
        have hNil := List.isEmpty_iff.mp hArray
        rcases take_eq_nil_iff.mp hNil with hZero | hDrop
        · omega
        · rw [hDrop, length_nil] at hBound
          omega
      · intro hNil
        rw [hNil name hMem, length_nil] at hBound
        omega

theorem ChunkShape.eq_nil_of_items
  (hItems : ∀ name ∈ names, chunk.items name = []) : ∀ name ∈ names, remaining name = [] := by
  unfold items at hItems
  cases hShape with
  | whole hAll =>
    intro name hName
    have hNil := hItems name hName
    rw [hAll name hName] at hNil
    exact hNil
  | cut before name after n hNames hPos hBound hPre
      hName hAfter =>
      have hMem : name ∈ names := by
        rw [hNames]
        exact mem_append_right _ mem_cons_self
      have hNil := hItems name hMem
      rw [hName] at hNil
      rcases take_eq_nil_iff.mp hNil with hZero | hDrop
      · omega
      · rw [hDrop, length_nil] at hBound
        omega

/- The rows of a kind in a chunk are its first ones left. -/
theorem ChunkShape.items_eq_take {name : EntityName} (hName : name ∈ names) :
  ∃ n, n ≤ (remaining name).length ∧ chunk.items name = (remaining name).take n := by
  unfold items
  cases hShape with
  | whole hAll =>
    refine ⟨(remaining name).length, Nat.le_refl _, ?_⟩
    rw [hAll name hName, take_length]
    rfl
  | cut before cutName after n hNames hPos hBound hPre
      hCut hAfter =>
      rw [hNames] at hName
      rcases mem_append.mp hName with hIn | hIn
      · refine ⟨(remaining name).length, Nat.le_refl _, ?_⟩
        rw [hPre name hIn, take_length]
        rfl
      · rcases mem_cons.mp hIn with hEq | hIn
        · refine ⟨n, hEq ▸ hBound, ?_⟩
          rw [hEq, hCut]
          rfl
        · refine ⟨0, Nat.zero_le _, ?_⟩
          rw [hAfter name hIn, take_zero]
          rfl

/- Kinds before one that has rows have all theirs. -/
theorem ChunkShape.items_eq_of_earlier {earlier later : List EntityName} {name other : EntityName}
  (hNames : names = earlier ++ name :: later) (hOther : other ∈ earlier)
  (hItems : chunk.items name ≠ []) : chunk.items other = remaining other := by
  unfold items at hItems ⊢
  cases hShape with
  | whole hAll =>
    have hMem : other ∈ names := by
      rw [hNames]
      exact mem_append_left _ hOther
    rw [hAll other hMem]
    rfl
  | cut before cutName after n hCutNames hPos hBound hPre
      hCut hAfter =>
      have hMem : other ∈ before := by
        rw [hCutNames] at hNames
        rcases append_eq_append_iff.mp hNames with
          ⟨middle, hEarlier, hRest⟩ | ⟨middle, hSplit, -⟩
        · cases middle with
          | nil =>
            rw [hEarlier, append_nil] at hOther
            exact hOther
          | cons head middle =>
            have hName : name ∈ after := by
              rw [(List.cons.inj hRest).2]
              exact mem_append_right _ mem_cons_self
            rw [hAfter name hName] at hItems
            exact absurd rfl hItems
        · rw [hSplit]
          exact mem_append_left _ hOther
      rw [hPre other hMem]
      rfl

end

-- Handed Rows

/- The rows of a kind that some calls hand to merges. -/
def handedTo (name : EntityName) (calls : List MergeCall) : List SyncEntity :=
  (calls.filter fun call => call.name = name).map MergeCall.ei

theorem handedTo_append (name : EntityName) (calls calls' : List MergeCall) :
  handedTo name (calls ++ calls') = handedTo name calls ++ handedTo name calls' := by
  unfold handedTo
  rw [filter_append, map_append]

/- The rows of a kind among pairs of kinds and rows. -/
theorem filter_handed
  (chunk : SyncChunk) (names : List EntityName) (name : EntityName) (hNodup : names.Nodup) :
  ((chunk.handed names).filter fun pair => pair.1 = name).map Prod.snd =
    if name ∈ names then chunk.items name else [] := by
  induction names with
  | nil => rfl
  | cons other names ih =>
    rcases nodup_cons.mp hNodup with ⟨hFresh, hNodup⟩
    have hHead :
        (((chunk.items other).map fun ei =>
            (other, ei)).filter
            fun pair => pair.1 = name).map Prod.snd =
          if other = name then chunk.items name
          else [] := by
      by_cases hOther : other = name
      · rw [if_pos hOther, hOther, List.filter_map]
        simp [Function.comp_def]
      · rw [if_neg hOther, List.filter_map]
        simp [Function.comp_def, hOther]
    unfold handed at ih ⊢
    rw [flatMap_cons, filter_append, map_append, hHead, ih hNodup]
    by_cases hOther : other = name
    · rw [if_pos hOther, if_neg (hOther ▸ hFresh), if_pos (mem_cons.mpr (Or.inl hOther.symm)),
        append_nil]
    · have hIff : name ∈ other :: names ↔ name ∈ names := by
        rw [mem_cons]
        constructor
        · rintro (hEq | hMem)
          · exact absurd hEq.symm hOther
          · exact hMem
        · exact .inr
      rw [if_neg hOther, nil_append]
      simp only [hIff]

variable
    {state : EntitySyncState} {last : EntitySyncState.ProcessState}
    {result : EntitySyncState.ProcessResult}

theorem PageSpec.handedTo_eq
  (hPage : PageSpec source localIds state chunk last result) (name : EntityName) :
  handedTo name result.calls = chunk.items name := by
  have hFilter := filter_handed chunk EntityName.all name EntityName.nodup_all
  rw [if_pos (EntityName.mem_all name),
    ← hPage.processes.handed, List.filter_map, List.map_map] at hFilter
  exact hFilter

theorem PageSpec.remaining_eq
  (hPage : PageSpec source localIds state chunk last result) (hDone : result.done = false)
  (name : EntityName) :
  state.remaining source name = chunk.items name ++ result.state.remaining source name := by
  rcases hPage.goesOn hDone with ⟨hWhen, hSyncMap⟩
  rcases hPage.shape.items_eq_take (EntityName.mem_all name) with ⟨n, hBound, hItems⟩
  have hLen : (chunk.items name).length = n := by
    rw [hItems, length_take, Nat.min_eq_left hBound]
  have hCount := hPage.processes.count name (EntityName.mem_all name)
  have hRest : result.state.remaining source name = (state.remaining source name).drop n := by
    unfold EntitySyncState.remaining remainingRows
    dsimp only
    rw [hWhen, hSyncMap, drop_drop, hCount, hLen]
  rw [hItems, hRest, take_append_drop]

-- Whole Passes

def MappedOrAmong (syncMap : SyncMap) (rows : EntityName → List SyncEntity) (name : EntityName)
  (id : Nat) : Prop :=
  Mapped syncMap name id ∨ ∃ ei ∈ rows name, ei.id = some id

/-
  At each of some calls the ids of earlier kinds that are
  mapped are those of a sync map and of some rows.
-/
def EarlierMapped
  (syncMap : SyncMap) (rows : EntityName → List SyncEntity) (calls : List MergeCall) : Prop :=
  ∀ call ∈ calls, ∀ earlier later, EntityName.all = earlier ++ call.name :: later →
      ∀ other ∈ earlier, ∀ id, Mapped call.syncMap other id ↔ MappedOrAmong syncMap rows other id

section

variable (hPage : PageSpec source localIds state chunk last result)
include hPage

theorem PageSpec.items_ne_nil
  {call : MergeCall} (hCall : call ∈ result.calls) : chunk.items call.name ≠ [] := by
  intro hNil
  have hMem : call.ei ∈ handedTo call.name result.calls := by
    unfold handedTo
    apply List.mem_map_of_mem
    rw [mem_filter]
    exact ⟨hCall, decide_eq_true rfl⟩
  rw [hPage.handedTo_eq, hNil] at hMem
  cases hMem

theorem PageSpec.earlierMapped : EarlierMapped state.syncMap (state.remaining source)
    result.calls := by
  intro call hCall earlier later hNames other hOther id
  have hItems := hPage.shape.items_eq_of_earlier hNames hOther (hPage.items_ne_nil hCall)
  unfold MappedOrAmong
  rw [hPage.processes.call_earlier call hCall earlier later hNames other hOther id, hItems]

theorem PageSpec.mappedOrAmong_iff (hDone : result.done = false) (name : EntityName) (id : Nat) :
  MappedOrAmong result.state.syncMap (result.state.remaining source) name id ↔
    MappedOrAmong state.syncMap (state.remaining source) name id := by
  unfold MappedOrAmong
  rw [(hPage.goesOn hDone).2, hPage.processes.mapped name (EntityName.mem_all name) id,
    hPage.remaining_eq hDone name]
  constructor
  · rintro ((hMapped | ⟨ei, hEi, hId⟩) | ⟨ei, hEi, hId⟩)
    · exact .inl hMapped
    · exact .inr ⟨ei, mem_append_left _ hEi, hId⟩
    · exact .inr ⟨ei, mem_append_right _ hEi, hId⟩
  · rintro (hMapped | ⟨ei, hEi, hId⟩)
    · exact .inl (Or.inl hMapped)
    · rcases mem_append.mp hEi with hIn | hIn
      · exact .inl (Or.inr ⟨ei, hIn, hId⟩)
      · exact .inr ⟨ei, hIn, hId⟩

end

/-
  A pass that ends hands the rows that remained to merges,
  each once, and rows of earlier kinds are mapped by then.
-/
theorem syncLoop_handed
  (limits : Nat → PageLimits) (fuel i : Nat) (state : EntitySyncState) (run : SyncRun)
  (hAgrees : localIds.Agrees state.syncMap)
  (hRun : syncLoop source localIds limits fuel i state = .ok run) (hDone : run.done = true) :
  (∀ name, handedTo name run.calls = state.remaining source name) ∧
    EarlierMapped state.syncMap (state.remaining source)
      run.calls := by
  induction fuel generalizing i state run with
  | zero =>
    cases hRun
    cases hDone
  | succ fuel ih =>
    rcases @syncPage_spec source localIds (limits i) state hAgrees with
      ⟨chunk, last, result, hRes, hPage⟩
    unfold syncLoop at hRun
    rw [hRes] at hRun
    dsimp only [bind, Except.bind] at hRun
    by_cases hLast : result.done = true
    · rw [if_pos hLast] at hRun
      cases hRun
      refine ⟨?_, hPage.earlierMapped⟩
      intro name
      rw [hPage.done_eq] at hLast
      rw [hPage.handedTo_eq]
      have hNil := hPage.shape.isEmptyOn_iff.mp hLast name (EntityName.mem_all name)
      rcases hPage.shape.items_eq_take (EntityName.mem_all name) with ⟨n, -, hItems⟩
      rw [hItems, hNil, take_nil]
    · have hNot := Bool.eq_false_iff.mpr hLast
      rw [if_neg hLast] at hRun
      cases hRest : syncLoop source localIds limits fuel (i + 1) result.state with
      | error error =>
        rw [hRest] at hRun
        cases hRun
      | ok rest =>
        rw [hRest] at hRun
        cases hRun
        have hAgrees' : localIds.Agrees result.state.syncMap := by
          rw [(hPage.goesOn hNot).2]
          exact hPage.processes.agrees
        rcases ih (i + 1) result.state rest hAgrees' hRest hDone with ⟨hHanded, hEarlier⟩
        constructor
        · intro name
          rw [handedTo_append, hPage.handedTo_eq, hHanded, hPage.remaining_eq hNot]
        · intro call hCall earlier later hNames other hOther id
          rcases mem_append.mp hCall with hFst | hLater
          · exact hPage.earlierMapped call hFst earlier later hNames other hOther id
          · rw [hEarlier call hLater earlier later hNames other hOther id]
            exact hPage.mappedOrAmong_iff hNot other id

def allRows (rows : EntityName → List SyncEntity) :
  List SyncEntity :=
  EntityName.all.flatMap rows

/- Shorter lists, one strictly, are fewer rows together. -/
theorem length_flatMap_lt
  {first second : EntityName → List SyncEntity} (name : EntityName) (names : List EntityName)
  (hLe : ∀ name, (first name).length ≤ (second name).length) (hName : name ∈ names)
  (hLt : (first name).length < (second name).length) :
  (names.flatMap first).length < (names.flatMap second).length := by
  have hAll :
      ∀ names : List EntityName, (names.flatMap first).length ≤ (names.flatMap second).length := by
    intro names
    induction names with
    | nil => exact Nat.le_refl _
    | cons head names ih =>
      rw [flatMap_cons, flatMap_cons, length_append, length_append]
      exact Nat.add_le_add (hLe head) ih
  induction names with
  | nil => cases hName
  | cons head names ih =>
    rw [flatMap_cons, flatMap_cons, length_append, length_append]
    rcases mem_cons.mp hName with hEq | hMem
    · rw [← hEq]
      exact Nat.add_lt_add_of_lt_of_le hLt (hAll names)
    · exact Nat.add_lt_add_of_le_of_lt (hLe head) (ih hMem)

theorem PageSpec.fewer_rows
  (hPage : PageSpec source localIds state chunk last result) (hDone : result.done = false) :
  (allRows (result.state.remaining source)).length <
    (allRows (state.remaining source)).length := by
  have hSplit := hPage.remaining_eq hDone
  have hRow : ∃ name, chunk.items name ≠ [] := by
    by_contra hNone
    push Not at hNone
    have hEmpty : chunk.isEmptyOn EntityName.all = true := by
      apply hPage.shape.isEmptyOn_iff.mpr
      exact hPage.shape.eq_nil_of_items fun name _ => hNone name
    rw [hPage.done_eq, hEmpty] at hDone
    cases hDone
  rcases hRow with ⟨name, hName⟩
  have hPos := length_pos_of_ne_nil hName
  apply length_flatMap_lt name _ _ (EntityName.mem_all name)
  · rw [hSplit name, length_append]
    omega
  · intro other
    rw [hSplit other, length_append]
    omega

/- Enough pages end a pass. -/
theorem syncLoop_done (limits : Nat → PageLimits) (fuel i : Nat) (state : EntitySyncState)
  (hAgrees : localIds.Agrees state.syncMap)
  (hFuel : (allRows (state.remaining source)).length < fuel) :
  ∃ run, syncLoop source localIds limits fuel i state = .ok run ∧ run.done = true := by
  induction fuel generalizing i state with
  | zero => omega
  | succ fuel ih =>
    rcases @syncPage_spec source localIds (limits i) state hAgrees with
      ⟨chunk, last, result, hRes, hPage⟩
    unfold syncLoop
    rw [hRes]
    dsimp only [bind, Except.bind]
    by_cases hLast : result.done = true
    · rw [if_pos hLast]
      exact ⟨_, rfl, rfl⟩
    · have hNot := Bool.eq_false_iff.mpr hLast
      have hFewer := hPage.fewer_rows hNot
      have hAgrees' : localIds.Agrees result.state.syncMap := by
        rw [(hPage.goesOn hNot).2]
        exact hPage.processes.agrees
      rcases ih (i + 1) result.state hAgrees' (by omega) with ⟨rest, hRest, hDone⟩
      rw [if_neg hLast, hRest]
      exact ⟨_, rfl, hDone⟩

-- Completeness

def ForeignMapped (call : MergeCall) : Prop :=
  ∀ foreign ∈ call.ei.foreignIds, Mapped call.syncMap foreign.1 foreign.2

/-
  The pass ends, hands each row that the filter keeps to a
  merge once and in order, and finds its ids mapped.
-/
def PassCompletes (source : SyncSource) (localIds : LocalIds) (limits : Nat → PageLimits)
  (state : EntitySyncState) : Prop :=
  ∃ fuel run, syncLoop source localIds limits fuel 0 state = .ok run ∧ run.done = true ∧
      (∀ name, handedTo name run.calls = source.rowsSince state.when name) ∧
      ∀ call ∈ run.calls, ForeignMapped call

/-
  Each id that a row of the filter carries is mapped before
  the pass, or belongs to a row of the filter.
-/
def ForeignIdsReachable (source : SyncSource) (state : EntitySyncState) : Prop :=
  ∀ name, ∀ ei ∈ source.rowsSince state.when name,
    ∀ foreign ∈ ei.foreignIds, MappedOrAmong state.syncMap
        (source.rowsSince state.when) foreign.1 foreign.2

/- The kinds before a kind. -/
def EntityName.earlier (name : EntityName) : List EntityName :=
  EntityName.all.takeWhile fun other => other ≠ name

/- The kinds that a kind refers to come before it. -/
theorem EntityName.foreign_earlier
  (name other : EntityName) (hForeign : other ∈ name.foreignNames) :
  ∃ earlier later, EntityName.all = earlier ++ name :: later ∧ other ∈ earlier := by
  have hAll : ∀ name ∈ EntityName.all, EntityName.all = name.earlier ++ name ::
                EntityName.all.drop (name.earlier.length + 1) ∧
          ∀ other ∈ name.foreignNames, other ∈ name.earlier := by
    decide
  rcases hAll name name.mem_all with ⟨hSplit, hOth⟩
  exact ⟨_, _, hSplit, hOth other hForeign⟩

theorem remaining_of_count_zero (hCount : ∀ name, (state.syncMap name).count = 0) :
  state.remaining source = source.rowsSince state.when := by
  funext name
  unfold EntitySyncState.remaining remainingRows
  dsimp only
  rw [hCount name, drop_zero]

section Pass

variable {limits : Nat → PageLimits} {state : EntitySyncState}

theorem foreignMapped_iff {calls : List MergeCall} {call : MergeCall}
  (hEarlier : EarlierMapped state.syncMap (source.rowsSince state.when) calls)
  (hCall : call ∈ calls) (hRow : call.ei ∈ source.rows call.name) :
  ForeignMapped call ↔ ∀ foreign ∈ call.ei.foreignIds,
      MappedOrAmong state.syncMap (source.rowsSince state.when) foreign.1
        foreign.2 := by
  unfold ForeignMapped
  apply forall_congr'
  intro foreign
  apply imp_congr_right
  intro hForeign
  have hNames := source.foreign_mem call.name call.ei hRow foreign hForeign
  rcases EntityName.foreign_earlier _ _ hNames with ⟨earlier, later, hAll, hOther⟩
  exact hEarlier call hCall earlier later hAll foreign.1 hOther foreign.2

theorem mem_calls_iff (name : EntityName) (calls : List MergeCall) (ei : SyncEntity) :
  ei ∈ handedTo name calls ↔ ∃ call ∈ calls, call.name = name ∧ call.ei = ei := by
  unfold handedTo
  rw [List.mem_map]
  simp only [mem_filter, decide_eq_true_iff, and_assoc]

theorem foreignMapped_calls_iff {calls : List MergeCall}
  (hHanded : ∀ name, handedTo name calls = source.rowsSince state.when name)
  (hEarlier : EarlierMapped state.syncMap (source.rowsSince state.when) calls) :
  (∀ call ∈ calls, ForeignMapped call) ↔ ForeignIdsReachable source state := by
  have hRow : ∀ call ∈ calls, call.ei ∈ source.rowsSince state.when call.name := by
    intro call hCall
    rw [← hHanded]
    exact (mem_calls_iff _ _ _).mpr ⟨call, hCall, rfl, rfl⟩
  constructor
  · intro hMapped name ei hEi
    rw [← hHanded] at hEi
    rcases (mem_calls_iff _ _ _).mp hEi with ⟨call, hCall, hName, hCallEi⟩
    have hIff := foreignMapped_iff hEarlier hCall (mem_of_mem_filter (hRow call hCall))
    rw [← hCallEi]
    exact hIff.mp (hMapped call hCall)
  · intro hReach call hCall
    apply (foreignMapped_iff hEarlier hCall (mem_of_mem_filter (hRow call hCall))).mpr
    exact hReach call.name call.ei (hRow call hCall)

section

variable (hAgrees : localIds.Agrees state.syncMap) (hCount : ∀ name, (state.syncMap name).count = 0)

include hAgrees hCount

theorem foreignIdsReachable_of_passCompletes
  (hCompletes : PassCompletes source localIds limits state) : ForeignIdsReachable source state := by
  rcases hCompletes with ⟨fuel, run, hRun, hDone, hHanded, hMapped⟩
  have hEarlier := (syncLoop_handed limits fuel 0 state run hAgrees hRun hDone).2
  rw [remaining_of_count_zero hCount] at hEarlier
  exact (foreignMapped_calls_iff hHanded hEarlier).mp hMapped

theorem passCompletes_of_foreignIdsReachable (hReach : ForeignIdsReachable source state) :
  PassCompletes source localIds limits state := by
  rcases @syncLoop_done source localIds limits _ 0 state hAgrees (Nat.lt_succ_self _) with
    ⟨run, hRun, hDone⟩
  rcases syncLoop_handed limits _ 0 state run hAgrees hRun hDone with ⟨hHanded, hEarlier⟩
  rw [remaining_of_count_zero hCount] at hHanded hEarlier
  exact ⟨_, run, hRun, hDone, hHanded, (foreignMapped_calls_iff hHanded hEarlier).mpr hReach⟩

end

/-
  A pass from offsets of zero completes exactly if the ids
  that its rows carry are mapped or belong to its rows.
-/
theorem passCompletes_iff (source : SyncSource) (localIds : LocalIds) (limits : Nat → PageLimits)
  (state : EntitySyncState) (hAgrees : localIds.Agrees state.syncMap)
  (hCount : ∀ name, (state.syncMap name).count = 0) :
  PassCompletes source localIds limits state ↔ ForeignIdsReachable source state :=
  ⟨foreignIdsReachable_of_passCompletes hAgrees hCount,
    passCompletes_of_foreignIdsReachable hAgrees hCount⟩

end Pass

/- A proof of another user's transaction, of an older date. -/
def provenTxRow : SyncEntity :=
  { key := 1
    id := some 1
    updatedAt := 10 }

def linkedTransactionRow : SyncEntity :=
  { key := 1
    id := some 1
    updatedAt := 30
    foreignIds := [(.provenTx, 1)] }

def linkedSource : SyncSource where
  rows name :=
    match name with
    | .provenTx => [provenTxRow]
    | .transaction => [linkedTransactionRow]
    | _ => []
  user := { updatedAt := 5 }
  keys_nodup name := by
    cases name
    all_goals decide
  foreign_mem name := by
    cases name
    all_goals decide

def sameIds : LocalIds where
  id _ inId := inId + 1
  id_pos _ _ := Nat.succ_le_succ (Nat.zero_le _)

/- The target's state after a pass that ended at a date. -/
def stateSince (when : Option Int) : EntitySyncState :=
  { syncMap := createSyncMap
    when := when
    user := { updatedAt := 5 } }

theorem agrees_createSyncMap (localIds : LocalIds) : localIds.Agrees createSyncMap := by
  intro name inId outId hMap
  cases hMap

theorem singleRow_maxItems : 1 ≤ 1 := Nat.le_refl 1

def singleRowPages : Nat → PageLimits :=
  fun _ => ⟨1, 0, singleRow_maxItems⟩

/- Without a date the proof is synced before it is needed. -/
theorem passCompletes_iff_linkedSource :
  PassCompletes linkedSource sameIds singleRowPages (stateSince none) ↔
    ForeignIdsReachable linkedSource (stateSince none) :=
  passCompletes_iff linkedSource sameIds singleRowPages
    (stateSince none) (agrees_createSyncMap sameIds) fun _ => rfl

/-
  After a pass that ended between the dates of the proof and
  of its link, the proof is neither synced nor mapped.
-/
theorem not_passCompletes_linkedSource :
  ¬PassCompletes linkedSource sameIds singleRowPages (stateSince (some 20)) := by
  intro hCompletes
  have hReachable :=
    foreignIdsReachable_of_passCompletes (agrees_createSyncMap sameIds) (fun _ => rfl) hCompletes
  have hRow : linkedTransactionRow ∈ linkedSource.rowsSince (some 20) .transaction :=
    List.mem_singleton_self _
  rcases hReachable .transaction linkedTransactionRow hRow
      (.provenTx, 1) (List.mem_singleton_self _) with
    hMapped | ⟨ei, hEi, -⟩
  · exact absurd hMapped (by decide)
  · cases hEi

end TsStack.Wallet
