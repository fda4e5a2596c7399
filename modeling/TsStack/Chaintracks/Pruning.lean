import TsStack.Chaintracks.LiveTree

/-
  What pruning does to a live tree: the lowest headers of
  the active chain are merged into bulk storage and deleted,
  one chunk after another.
-/

-- The Active Headers in Order

open List

namespace TsStack.Chaintracks

theorem foldl_min_eq {low first : Nat} {rest : List Nat} (hMem : low ∈ first :: rest)
  (hLow : ∀ value ∈ first :: rest, low ≤ value) : rest.foldl min first = low := by
  induction rest generalizing first with
  | nil => exact (mem_singleton.mp hMem).symm
  | cons second rest ih =>
    rw [foldl_cons]
    have hFst := hLow first mem_cons_self
    have hSnd := hLow second (by simp)
    apply ih
    · rcases mem_cons.mp hMem with rfl | hTail
      · rw [Nat.min_eq_left hSnd]
        exact mem_cons_self
      · rcases mem_cons.mp hTail with rfl | hRest
        · rw [Nat.min_eq_right hFst]
          exact mem_cons_self
        · exact mem_cons_of_mem _ hRest
    · intro value hValue
      rcases mem_cons.mp hValue with rfl | hRest
      · exact Nat.le_min.mpr ⟨hFst, hSnd⟩
      · exact hLow value (by simp [hRest])

theorem foldl_max_eq {high first : Nat} {rest : List Nat} (hMem : high ∈ first :: rest)
  (hHigh : ∀ value ∈ first :: rest, value ≤ high) : rest.foldl max first = high := by
  induction rest generalizing first with
  | nil => exact (mem_singleton.mp hMem).symm
  | cons second rest ih =>
    rw [foldl_cons]
    have hFst := hHigh first mem_cons_self
    have hSnd := hHigh second (by simp)
    apply ih
    · rcases mem_cons.mp hMem with rfl | hTail
      · rw [Nat.max_eq_left hSnd]
        exact mem_cons_self
      · rcases mem_cons.mp hTail with rfl | hRest
        · rw [Nat.max_eq_right hFst]
          exact mem_cons_self
        · exact mem_cons_of_mem _ hRest
    · intro value hValue
      rcases mem_cons.mp hValue with rfl | hRest
      · exact Nat.max_le.mpr ⟨hFst, hSnd⟩
      · exact hHigh value (by simp [hRest])

namespace LiveTree

variable {live nodes : List LiveBlockHeader} {tip lowest : LiveBlockHeader} {maxHeaderId : Nat}

section

variable (hTree : LiveTree live maxHeaderId tip nodes lowest)
include hTree

theorem activeHeaders_perm : (activeHeaders live).Perm (nodes ++ [lowest]) := by
  have hLive : live.Nodup := hTree.linked.nodup_ids.of_map
  have hNodes := hTree.chain.path.nodup ParentLink.height
  apply (perm_ext_iff_of_nodup (hLive.filter _) hNodes).mpr
  intro header
  rw [mem_filter, hTree.chain.mem_iff]

theorem sortByHeight_eq : sortByHeight (activeHeaders live) = (nodes ++ [lowest]).reverse := by
  have hPerm : (sortByHeight (activeHeaders live)).Perm (nodes ++ [lowest]).reverse :=
    (perm_insertionSort _ _).trans (hTree.activeHeaders_perm.trans (reverse_perm _).symm)
  have hMem : ∀ header ∈ (nodes ++ [lowest]).reverse, header ∈ nodes ++ [lowest] :=
    fun header hIn => mem_reverse.mp hIn
  have hTotal : Std.Total fun left right : LiveBlockHeader => left.height ≤ right.height :=
    ⟨fun left right => Nat.le_total left.height right.height⟩
  have hTrans : IsTrans LiveBlockHeader fun left right => left.height ≤ right.height :=
    ⟨fun _ _ _ => Nat.le_trans⟩
  apply List.Perm.eq_of_pairwise _ _ _ hPerm
  · exact fun left right => left.height ≤ right.height
  · intro left right hLeft hRight hLe hGe
    exact hTree.chain.path.eq_of_measure_eq ParentLink.height
      (hMem left (hPerm.mem_iff.mp hLeft)) (hMem right hRight) (Nat.le_antisymm hLe hGe)
  · exact pairwise_insertionSort _ _
  · rw [pairwise_reverse]
    exact (hTree.chain.path.pairwise_measure ParentLink.height).imp fun hLt => Nat.le_of_lt hLt

theorem findLiveHeightRange_eq : findLiveHeightRange live =
    { minHeight := lowest.height
      maxHeight := tip.height } := by
  have hHeights : ∀ height, height ∈ (activeHeaders live).map (·.height) ↔
          ∃ header ∈ nodes ++ [lowest], header.height = height := by
    intro height
    rw [List.mem_map]
    constructor
    · rintro ⟨header, hIn, hEq⟩
      exact ⟨header, hTree.activeHeaders_perm.mem_iff.mp hIn, hEq⟩
    · rintro ⟨header, hIn, hEq⟩
      exact ⟨header, hTree.activeHeaders_perm.mem_iff.mpr hIn, hEq⟩
  have hBounds : ∀ height ∈ (activeHeaders live).map (·.height),
        lowest.height ≤ height ∧ height ≤ tip.height := by
    intro height hIn
    rcases (hHeights height).mp hIn with ⟨header, hNode, rfl⟩
    have hBetween := hTree.chain.path.measure_bounds ParentLink.height hNode
    exact hBetween
  have hLow := (hHeights lowest.height).mpr ⟨lowest, by simp, rfl⟩
  have hHigh := (hHeights tip.height).mpr ⟨tip, hTree.chain.path.start_mem, rfl⟩
  unfold findLiveHeightRange
  cases hList : (activeHeaders live).map (·.height) with
  | nil =>
    rw [hList] at hLow
    cases hLow
  | cons first rest =>
    rw [hList] at hLow hHigh hBounds
    have hMin := foldl_min_eq hLow fun value hIn => (hBounds value hIn).1
    have hMax := foldl_max_eq hHigh fun value hIn => (hBounds value hIn).2
    simp only [hMin, hMax]

end

end LiveTree

-- Migrations

def Storage.migrated (data : Storage) (bulkFiles : List BulkFile) (maxHeight : Nat) : Storage :=
  { ({ data with bulkFiles := bulkFiles } : Storage).deleteOlder maxHeight with
    lastActiveMinHeight := none }

inductive Migrates (options : Options) (limit : Nat) : Storage → Storage → Prop where
| stop (data : Storage) : Migrates options limit data data
| step
    {data final : Storage} {tip lowest last : LiveBlockHeader} {nodes : List LiveBlockHeader}
    {bulkFiles : List BulkFile} {count work : Nat}
    (hTree : LiveTree data.liveHeaders data.maxHeaderId tip nodes lowest)
    (hLast : last ∈ nodes ++ [lowest])
    (hEnd : ((nodes ++ [lowest]).reverse.take count).getLast? = some last)
    (hLimit : last.height < limit) (hBelow : last.height < tip.height)
    (hMerge : options.mergeIncrementalBlockHeaders data.bulkFiles
          (((nodes ++ [lowest]).reverse.take count).map (·.toBlockHeader)) work =
        .ok bulkFiles)
    (hRest : Migrates options limit (data.migrated bulkFiles last.height) final) :
    Migrates options limit data final

variable
    {data : Storage} {tip lowest : LiveBlockHeader} {nodes : List LiveBlockHeader}

variable (options : Options)

/- A chunk migrates as a whole or nothing changes. -/
theorem migrateLiveToBulk_spec
  {count : Nat} (hTree : LiveTree data.liveHeaders data.maxHeaderId tip nodes lowest)
  (hPos : 1 ≤ count) (hChunk : count ≤ options.bulkMigrationChunkSize)
  (hCount : lowest.height + count ≤ tip.height) :
  (∃ error, migrateLiveToBulk count options data = .error error data) ∨
    ∃ last work bulkFiles, last ∈ nodes ++ [lowest] ∧ last.height + 1 = lowest.height + count ∧
          ((nodes ++ [lowest]).reverse.take count).getLast? = some last ∧
            options.mergeIncrementalBlockHeaders data.bulkFiles
                (((nodes ++ [lowest]).reverse.take count).map (·.toBlockHeader)) work =
              .ok bulkFiles ∧ migrateLiveToBulk count options data = .ok ()
                  (({ data with bulkFiles := bulkFiles } :
                    Storage).deleteOlder last.height) := by
  have hLimit := Nat.le_trans hChunk options.bulkMigrationChunkSize_le
  have hHeight := hTree.chain.path.measure_eq ParentLink.height
  have hLen : count ≤ (nodes ++ [lowest]).reverse.length := by
    simp only [length_reverse, length_append, length_singleton]
    omega
  -- the taken headers and their ends
  let taken := (nodes ++ [lowest]).reverse.take count
  have hTaken : taken.length = count := length_take_of_le hLen
  have hNe : taken ≠ [] := by
    intro hNil
    rw [hNil] at hTaken
    simp only [length_nil] at hTaken
    omega
  rcases exists_cons_of_ne_nil hNe with ⟨firstHeader, rest, hCons⟩
  have hLastAt : taken.getLast? = (nodes ++ [lowest]).reverse[count - 1]? := by
    rw [getLast?_eq_getElem?, hTaken, getElem?_take_of_lt (by omega)]
  have hSome : taken.getLast?.isSome := by
    rw [getLast?_isSome]
    exact hNe
  rcases Option.isSome_iff_exists.mp hSome with ⟨last, hLast⟩
  have hAt := hLastAt.symm.trans hLast
  have hLastHeight := hTree.chain.path.measure_getElem_reverse ParentLink.height hAt
  have hLastIn : last ∈ nodes ++ [lowest] := mem_reverse.mp (mem_of_getElem? hAt)
  have hHeaders : liveHeadersForBulk data.liveHeaders count = .ok taken := by
    unfold liveHeadersForBulk
    rw [if_neg, hTree.sortByHeight_eq]
    unfold MAX_STORAGE_LIMIT at hLimit
    omega
  have hValid : validateHeight last.height "maxHeight" = .ok () := by
    apply if_neg
    have hLe := hTree.linked.height_le last (hTree.chain.mem_live hLastIn)
    omega
  have hHead : taken.head? = some firstHeader := by
    rw [hCons]
    rfl
  unfold migrateLiveToBulk
  simp only [StateProgram.bind_run, StateProgram.read_run]
  rw [if_neg (by omega), if_neg (by omega)]
  simp only [StateProgram.bind_run, StateProgram.get_run,
    hHeaders, StateProgram.ofExcept, StateProgram.pure_run, addLiveHeadersToBulk, hHead, hLast,
    StateProgram.read_run]
  cases hWork : incrementalWork options.chain firstHeader last with
  | error error => exact .inl ⟨error, rfl⟩
  | ok work =>
    cases hMerge :
      options.mergeIncrementalBlockHeaders data.bulkFiles (taken.map (·.toBlockHeader)) work with
    | error error =>
      left
      refine ⟨error, ?_⟩
      simp only [StateProgram.pure_run, hMerge]
      rfl
    | ok bulkFiles =>
      right
      refine ⟨last, work, bulkFiles, hLastIn, by omega, hLast, hMerge, ?_⟩
      simp only [StateProgram.pure_run, hMerge, deleteOlderLiveBlockHeaders, hValid,
        StateProgram.bind_run, StateProgram.get_run, StateProgram.set_run, StateProgram.ofExcept]

-- Pruning Migrates

open StateProgram (finalState)

theorem LiveTree.migrated
  {last : LiveBlockHeader} (hTree : LiveTree data.liveHeaders data.maxHeaderId tip nodes lowest)
  (hLast : last ∈ nodes ++ [lowest]) (hBelow : last.height < tip.height)
  (bulkFiles : List BulkFile) :
  ∃ tip' nodes' lowest', LiveTree (data.migrated bulkFiles last.height).liveHeaders
        (data.migrated bulkFiles last.height).maxHeaderId tip' nodes' lowest' ∧
      tip'.toBlockHeader = tip.toBlockHeader ∧ lowest'.height = last.height + 1 ∧
          lowest'.previousHash = last.hash := by
  have hLow := hTree.chain.path.measure_bounds ParentLink.height hLast
  rcases hTree.keepNewer hBelow with ⟨bottom, nodes', hBottom, hHeight, hNewer⟩
  have hBottomHeight : bottom.height = last.height + 1 := by omega
  have hNode : bottom ∈ nodes := by
    rcases mem_concat_iff.mp hBottom with hNode | hEq
    · exact hNode
    · rw [hEq] at hBottomHeight
      omega
  rcases hTree.chain.path.exists_next hNode with ⟨parent, hParent, hLink⟩
  have hParentHeight := hLink.2.2
  have hParentEq := hTree.chain.path.eq_of_measure_eq ParentLink.height hParent hLast (by omega)
  subst hParentEq
  refine ⟨_, nodes', _, hNewer, toBlockHeader_clearPreviousHeaderId _ _ tip, ?_, ?_⟩
  · rw [height_clearPreviousHeaderId]
    exact hBottomHeight
  · rw [toBlockHeader_clearPreviousHeaderId]
    exact hLink.2.1

/- The loop makes migrations. -/
theorem migrateWhile_migrates {limit : Nat} (turns totalCount : Nat)
  (hTree : LiveTree data.liveHeaders data.maxHeaderId tip nodes lowest)
  (hNone : data.lastActiveMinHeight = none)
  (hTotal : 0 < totalCount → lowest.height + totalCount ≤ limit) (hLimit : limit ≤ tip.height) :
  Migrates options limit data (finalState (migrateWhile turns totalCount options data)) := by
  induction turns generalizing totalCount data tip lowest nodes with
  | zero => exact .stop data
  | succ turns ih =>
    unfold migrateWhile
    simp only [StateProgram.bind_run, StateProgram.read_run]
    by_cases hMore : options.bulkMigrationChunkSize ≤ totalCount
    · have hChunk := options.bulkMigrationChunkSize_pos
      have hPos : 0 < totalCount := by omega
      have hSum := hTotal hPos
      rw [if_pos hMore, Nat.min_eq_right hMore]
      have hStep := migrateLiveToBulk_spec options hTree hChunk (Nat.le_refl _) (by omega)
      rcases hStep with ⟨error, hRun⟩ | ⟨last, work, bulkFiles, hLast, hCount, hEnd, hMerge, hRun⟩
      · simp only [StateProgram.bind_run, hRun]
        exact .stop data
      · simp only [StateProgram.bind_run, hRun, StateProgram.modify_run]
        have hBelow : last.height < tip.height := by omega
        rcases hTree.migrated hLast hBelow bulkFiles with
          ⟨tip', nodes', lowest', hTree', hTip, hLow, _⟩
        have hTipHeight : tip'.height = tip.height := by rw [hTip]
        apply Migrates.step hTree hLast hEnd (by omega) hBelow hMerge
        exact ih (totalCount - options.bulkMigrationChunkSize) hTree' rfl (by omega) (by omega)
    · rw [if_neg hMore]
      exact .stop data

theorem pruneLiveBlockHeaders_migrates
  (hTree : LiveTree data.liveHeaders data.maxHeaderId tip nodes lowest)
  (hNone : data.lastActiveMinHeight = none) :
  Migrates options (tip.height + 1 - options.liveHeightThreshold) data
    (finalState (pruneLiveBlockHeaders tip.height options data)) := by
  have hThreshold := options.liveHeightThreshold_pos
  have hMin : activeMinHeight data = lowest.height := by
    unfold activeMinHeight
    rw [hNone, hTree.findLiveHeightRange_eq]
    rfl
  have hValid : validateHeight tip.height "activeTipHeight" = .ok () := by
    apply if_neg
    have hLe := hTree.linked.height_le tip hTree.chain.tip_mem.1
    omega
  unfold pruneLiveBlockHeaders
  simp only [hValid, StateProgram.ofExcept, StateProgram.bind_run, StateProgram.pure_run,
    StateProgram.read_run, StateProgram.get_run, hMin]
  apply migrateWhile_migrates options _ _ hTree hNone
  · omega
  · omega

theorem Migrates.liveTree {options : Options} {limit : Nat} {final : Storage}
  (hMigrates : Migrates options limit data final)
  (hTree : LiveTree data.liveHeaders data.maxHeaderId tip nodes lowest)
  (hNone : data.lastActiveMinHeight = none) :
  final.lastActiveMinHeight = none ∧ ∃ tip' nodes' lowest',
      LiveTree final.liveHeaders final.maxHeaderId tip' nodes' lowest' ∧
        tip'.height = tip.height := by
  induction hMigrates generalizing tip lowest nodes with
  | stop data => exact ⟨hNone, tip, nodes, lowest, hTree, rfl⟩
  | @step data final tip₀ lowest₀ last nodes₀ bulkFiles count
      work hTree₀ hLast hEnd hLimit hBelow hMerge hRest ih =>
      have hTipEq : tip₀ = tip :=
        hTree.eq_tip hTree₀.chain.tip_mem.1 hTree₀.chain.tip_mem.2 hTree₀.chain.isChainTip
      rcases hTree₀.migrated hLast hBelow bulkFiles with ⟨tip', nodes', lowest', hTree', hTip, _⟩
      rcases ih hTree' rfl with ⟨hFinalNone, tip'', nodes'', lowest'', hFinal, hEq⟩
      exact ⟨hFinalNone, tip'', nodes'', lowest'', hFinal, by rw [hEq, hTip, hTipEq]⟩

end TsStack.Chaintracks
