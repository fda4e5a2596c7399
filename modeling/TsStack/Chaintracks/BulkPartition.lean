import TsStack.Chaintracks.LiveChain

/-
  The partition of the headers into bulk and live storage.

  The bulk files hold the headers up to a height and the
  active live headers are those above it, as long as every
  insertion is safe and the bulk manager appends the headers
  it is given.
-/

-- Bulk Files

open List

namespace TsStack.Chaintracks

def bulkHeaders (bulkFiles : List BulkFile) : List BlockHeader :=
  bulkFiles.flatMap (·.data)

def bulkEnd (bulkFiles : List BulkFile) : Nat :=
  (bulkFiles.map (·.count)).sum

def BulkFilesFrom : Nat → List BulkFile → Prop
| _, [] => True
| height, file :: bulkFiles =>
  file.firstHeight = height ∧ file.data.map (·.height) = List.range' height file.count ∧
      BulkFilesFrom (height + file.count) bulkFiles

def HeadersFollow :
  Nat → JsString → List BlockHeader → Prop
| _, _, [] => True
| height, previousHash, header :: headers =>
  header.height = height ∧ header.previousHash = previousHash ∧
      HeadersFollow (height + 1) header.hash headers

def AppendsHeaders
  (merge :
    List BulkFile → List BlockHeader → Nat → Except ChaintracksError (List BulkFile)) : Prop :=
  ∀ bulkFiles lastFile headers lastHeader work merged,
    BulkFilesFrom 0 bulkFiles → bulkFiles.getLast? = some lastFile →
        headers.getLast? = some lastHeader →
          HeadersFollow (bulkEnd bulkFiles) lastFile.lastHash headers →
            merge bulkFiles headers work = .ok merged →
              BulkFilesFrom 0 merged ∧ bulkHeaders merged = bulkHeaders bulkFiles ++ headers ∧
                  merged.getLast?.map (·.lastHash) = some lastHeader.hash

variable
    {height : Nat} {bulkFiles : List BulkFile}

theorem BulkFilesFrom.last_end {lastFile : BulkFile} (hFiles : BulkFilesFrom height bulkFiles)
  (hLast : bulkFiles.getLast? = some lastFile) :
  lastFile.firstHeight + lastFile.count = height + bulkEnd bulkFiles := by
  induction bulkFiles generalizing height with
  | nil => cases hLast
  | cons file bulkFiles ih =>
    rcases hFiles with ⟨hFst, _, hRest⟩
    rw [bulkEnd, map_cons, sum_cons]
    cases bulkFiles with
    | nil =>
      have hEq : file = lastFile := by simpa using hLast
      rw [← hEq, hFst]
      rfl
    | cons next more =>
      rw [getLast?_cons_cons] at hLast
      have hEnd := ih hRest hLast
      rw [hEnd, bulkEnd]
      omega

theorem BulkFilesFrom.length_bulkHeaders (hFiles : BulkFilesFrom height bulkFiles) :
  (bulkHeaders bulkFiles).length = bulkEnd bulkFiles := by
  induction bulkFiles generalizing height with
  | nil => rfl
  | cons file bulkFiles ih =>
    rcases hFiles with ⟨_, hHeights, hRest⟩
    have hLen := congrArg length hHeights
    rw [length_map, length_range'] at hLen
    have hMore := ih hRest
    rw [bulkHeaders] at hMore
    rw [bulkHeaders, flatMap_cons, length_append,
      hLen, hMore, bulkEnd, bulkEnd, map_cons, sum_cons]

theorem BulkFilesFrom.append {height : Nat} {bulkFiles : List BulkFile} {file : BulkFile}
  (hFiles : BulkFilesFrom height bulkFiles) (hFst : file.firstHeight = height + bulkEnd bulkFiles)
  (hHeights : file.data.map (·.height) = range' file.firstHeight file.count) :
  BulkFilesFrom height (bulkFiles ++ [file]) := by
  induction bulkFiles generalizing height with
  | nil =>
    have hEq : file.firstHeight = height := by
      rw [hFst]
      rfl
    refine ⟨hEq, ?_, trivial⟩
    rw [hHeights, hEq]
  | cons other bulkFiles ih =>
    rcases hFiles with ⟨hOther, hOtherHeights, hRest⟩
    refine ⟨hOther, hOtherHeights, ih hRest ?_⟩
    rw [hFst, bulkEnd, bulkEnd, map_cons, sum_cons]
    omega

variable
    {previousHash : JsString} {headers : List BlockHeader}

section

variable (hFoll : HeadersFollow height previousHash headers)
include hFoll

theorem HeadersFollow.map_height : headers.map (·.height) = range' height headers.length := by
  induction headers generalizing height previousHash with
  | nil => rfl
  | cons header headers ih =>
    rcases hFoll with ⟨hHeight, _, hRest⟩
    rw [map_cons, ih hRest, hHeight, length_cons, range'_succ]

theorem HeadersFollow.last_height
  {lastHeader : BlockHeader} (hLast : headers.getLast? = some lastHeader) :
  lastHeader.height + 1 = height + headers.length := by
  induction headers generalizing height previousHash with
  | nil => cases hLast
  | cons header headers ih =>
    rcases hFoll with ⟨hHeight, _, hRest⟩
    cases headers with
    | nil =>
      have hEq : header = lastHeader := by simpa using hLast
      rw [← hEq, hHeight]
      rfl
    | cons next more =>
      rw [getLast?_cons_cons] at hLast
      rw [ih hRest hLast, length_cons, length_cons, length_cons]
      omega

theorem HeadersFollow.height_le {header lastHeader : BlockHeader}
  (hLast : headers.getLast? = some lastHeader) (hIn : header ∈ headers) :
  header.height ≤ lastHeader.height := by
  have hHeight : header.height ∈ headers.map (·.height) := List.mem_map_of_mem hIn
  rw [hFoll.map_height, mem_range'_1] at hHeight
  have hEnd := hFoll.last_height hLast
  omega

end

theorem BulkFilesFrom.getHeightRange_eq {lastFile : BulkFile} (hFiles : BulkFilesFrom 0 bulkFiles)
  (hLast : bulkFiles.getLast? = some lastFile) : getHeightRange bulkFiles =
    { minHeight := 0
      maxHeight := (bulkEnd bulkFiles : Int) - 1 } := by
  have hEnd := hFiles.last_end hLast
  unfold getHeightRange
  cases bulkFiles with
  | nil => cases hLast
  | cons file bulkFiles =>
    rcases hFiles with ⟨hFst, _, _⟩
    rw [head?_cons, hLast]
    simp only [hFst]
    congr 1
    omega

theorem HeadersFollow.concat
  {header : BlockHeader} (hFoll : HeadersFollow height previousHash headers)
  (hHeight : header.height = height + headers.length)
  (hHash : header.previousHash = ((headers.getLast?).map (·.hash)).getD previousHash) :
  HeadersFollow height previousHash (headers ++ [header]) := by
  induction headers generalizing height previousHash with
  | nil => exact ⟨hHeight, hHash, trivial⟩
  | cons first headers ih =>
    rcases hFoll with ⟨hFst, hPrev, hRest⟩
    refine ⟨hFst, hPrev, ih hRest ?_ ?_⟩
    · rw [hHeight, length_cons]
      omega
    · cases headers with
      | nil => exact hHash
      | cons second more =>
        rw [getLast?_cons_cons] at hHash
        rw [hHash, getLast?_cons]
        rfl

theorem HeadersFollow.take (hFoll : HeadersFollow height previousHash headers) (count : Nat) :
  HeadersFollow height previousHash (headers.take count) := by
  induction headers generalizing height previousHash count with
  | nil =>
    rw [take_nil]
    trivial
  | cons header headers ih =>
    cases count with
    | zero => trivial
    | succ count =>
      rcases hFoll with ⟨hHeight, hHash, hRest⟩
      exact ⟨hHeight, hHash, ih hRest count⟩

theorem headersFollow_of_path {tip lowest : LiveBlockHeader} {nodes : List LiveBlockHeader}
  (hPath : RelationPath ParentLink tip nodes lowest) :
  HeadersFollow lowest.height lowest.previousHash
      ((nodes ++ [lowest]).reverse.map (·.toBlockHeader)) ∧
    ((nodes ++ [lowest]).reverse.map (·.toBlockHeader)).getLast? = some tip.toBlockHeader := by
  induction hPath with
  | stop lowest => exact ⟨⟨rfl, rfl, trivial⟩, rfl⟩
  | @step child parent lowest nodes hLink hPath ih =>
    rcases ih with ⟨hFoll, hLast⟩
    have hEq : ((child :: nodes ++ [lowest]).reverse.map (·.toBlockHeader)) =
          (nodes ++ [lowest]).reverse.map (·.toBlockHeader) ++ [child.toBlockHeader] := by
      simp
    rw [hEq]
    constructor
    · apply hFoll.concat
      · have hHeight := hPath.measure_eq ParentLink.height
        rw [hLink.2.2, length_map, length_reverse, length_append,
          length_singleton]
        omega
      · rw [hLast]
        exact hLink.2.1
    · exact getLast?_concat

-- The Partition

open StateProgram (finalState)

variable {options : Options} {data final : Storage}

structure Partition (data : Storage) : Prop where
  contiguous : BulkFilesFrom 0 data.bulkFiles
  ranges : ∃ bulk live, getAvailableHeightRanges data = .ok (bulk, live) ∧
        bulk.minHeight = 0 ∧ bulk.maxHeight + 1 = bulkEnd data.bulkFiles ∧
            (data.liveHeaders = [] ∨ live.isEmpty = false ∧ live.minHeight = bulk.maxHeight + 1)

structure AboveBulk (data : Storage) (tip : LiveBlockHeader) (nodes : List LiveBlockHeader)
  (lowest : LiveBlockHeader) : Prop where
  tree : LiveTree data.liveHeaders data.maxHeaderId tip nodes lowest
  lastHash : data.bulkFiles.getLast?.map (·.lastHash) = some lowest.previousHash
  height_eq : lowest.height = bulkEnd data.bulkFiles

structure Partitioned (data : Storage) : Prop where
  lastActiveMinHeight : data.lastActiveMinHeight = none
  contiguous : BulkFilesFrom 0 data.bulkFiles
  live : data.liveHeaders = [] ∨ ∃ tip nodes lowest, AboveBulk data tip nodes lowest

theorem getAvailableHeightRanges_eq (hMin : (getHeightRange data.bulkFiles).minHeight = 0)
  (hMax : -1 ≤ (getHeightRange data.bulkFiles).maxHeight)
  (hLive : (findLiveHeightRange data.liveHeaders).isEmpty = true ∨
      (findLiveHeightRange data.liveHeaders).minHeight =
        (getHeightRange data.bulkFiles).maxHeight + 1) :
  getAvailableHeightRanges data = .ok (getHeightRange data.bulkFiles,
        findLiveHeightRange data.liveHeaders) := by
  unfold getAvailableHeightRanges
  by_cases hBulk : (getHeightRange data.bulkFiles).isEmpty = true
  · have hEnd : (getHeightRange data.bulkFiles).maxHeight = -1 := by
      rw [HeightRange.isEmpty, decide_eq_true_eq] at hBulk
      omega
    have hNot : ¬ (!(findLiveHeightRange data.liveHeaders).isEmpty &&
          (findLiveHeightRange data.liveHeaders).minHeight ≠ 0) = true := by
      rcases hLive with hEmpty | hNext
      · simp [hEmpty]
      · simp [hNext, hEnd]
    simp only [hBulk, if_true]
    exact if_neg hNot
  · have hNot : ¬ (!(findLiveHeightRange data.liveHeaders).isEmpty &&
          (getHeightRange data.bulkFiles).maxHeight + 1 ≠
            (findLiveHeightRange data.liveHeaders).minHeight) = true := by
      rcases hLive with hEmpty | hNext
      · simp [hEmpty]
      · simp [hNext]
    simp only [hBulk, hMin, ne_eq, not_true_eq_false, if_false]
    exact if_neg hNot

theorem BulkFilesFrom.range (hFiles : BulkFilesFrom 0 bulkFiles) :
  (getHeightRange bulkFiles).minHeight = 0 ∧
    (getHeightRange bulkFiles).maxHeight + 1 = bulkEnd bulkFiles := by
  cases hLast : bulkFiles.getLast? with
  | none =>
    rw [getLast?_eq_none_iff.mp hLast]
    exact ⟨rfl, rfl⟩
  | some lastFile =>
    rw [hFiles.getHeightRange_eq hLast]
    exact ⟨rfl, by simp⟩

theorem Partitioned.partition (hData : Partitioned data) : Partition data := by
  rcases hData.contiguous.range with ⟨hMin, hMax⟩
  constructor
  · exact hData.contiguous
  · rcases hData.live with hEmpty | ⟨tip, nodes, lowest, hTree, hLast, hHeight⟩
    · have hLive : findLiveHeightRange data.liveHeaders =
            HeightRange.empty := by
        rw [hEmpty]
        rfl
      have hRanges := getAvailableHeightRanges_eq hMin (by omega) (.inl (by rw [hLive]; rfl))
      exact ⟨_, _, hRanges, hMin, hMax, .inl hEmpty⟩
    · have hLow := hTree.chain.lowest_height_le
      have hLive := hTree.findLiveHeightRange_eq
      have hNext : (findLiveHeightRange data.liveHeaders).minHeight =
            (getHeightRange data.bulkFiles).maxHeight + 1 := by
        rw [hLive, hMax, hHeight]
      have hSome : (findLiveHeightRange data.liveHeaders).isEmpty =
            false := by
        rw [hLive, HeightRange.isEmpty, decide_eq_false_iff_not]
        simp only
        omega
      have hRanges := getAvailableHeightRanges_eq hMin (by omega) (.inr hNext)
      exact ⟨_, _, hRanges, hMin, hMax, .inr ⟨hSome, hNext⟩⟩

-- Migrations Keep the Partition

variable {tip lowest last : LiveBlockHeader} {nodes : List LiveBlockHeader}

theorem activeHeaders_migrated {maxHeight : Nat} {header : BlockHeader}
  (hIn : header ∈ (activeHeaders (data.migrated bulkFiles maxHeight).liveHeaders).map
        (·.toBlockHeader)) :
  header ∈ (activeHeaders data.liveHeaders).map (·.toBlockHeader) := by
  rcases List.mem_map.mp hIn with ⟨kept, hKept, rfl⟩
  rw [activeHeaders, mem_filter] at hKept
  rcases mem_keepNewerHeaders.mp hKept.1 with ⟨stored, hStore, _, rfl⟩
  apply List.mem_map.mpr
  refine ⟨stored, ?_, (toBlockHeader_clearPreviousHeaderId _ _ stored).symm⟩
  rw [activeHeaders, mem_filter]
  rcases clearPreviousHeaderId_eq data.liveHeaders maxHeight stored with ⟨_, hEq⟩
  rw [hEq] at hKept
  exact ⟨hStore, hKept.2⟩

theorem AboveBulk.taken (hAbove : AboveBulk data tip nodes lowest) {count : Nat}
  (hEnd : ((nodes ++ [lowest]).reverse.take count).getLast? = some last) :
  HeadersFollow (bulkEnd data.bulkFiles) lowest.previousHash
      (((nodes ++ [lowest]).reverse.take count).map (·.toBlockHeader)) ∧
    (((nodes ++ [lowest]).reverse.take count).map (·.toBlockHeader)).getLast? =
      some last.toBlockHeader := by
  constructor
  · rw [← hAbove.height_eq, map_take]
    exact (headersFollow_of_path hAbove.tree.chain.path).1.take count
  · rw [getLast?_map, hEnd]
    rfl

theorem AboveBulk.migrated (hMerge : AppendsHeaders options.mergeIncrementalBlockHeaders)
  (hFiles : BulkFilesFrom 0 data.bulkFiles) (hAbove : AboveBulk data tip nodes lowest)
  {count work : Nat} (hLast : last ∈ nodes ++ [lowest])
  (hEnd : ((nodes ++ [lowest]).reverse.take count).getLast? = some last)
  (hBelow : last.height < tip.height) (hRun : options.mergeIncrementalBlockHeaders data.bulkFiles
        (((nodes ++ [lowest]).reverse.take count).map (·.toBlockHeader)) work =
      .ok bulkFiles) :
  BulkFilesFrom 0 bulkFiles ∧ bulkHeaders bulkFiles = bulkHeaders data.bulkFiles ++
          ((nodes ++ [lowest]).reverse.take count).map (·.toBlockHeader) ∧
      ∃ tip' nodes' lowest', AboveBulk (data.migrated bulkFiles last.height) tip' nodes' lowest' ∧
          tip'.toBlockHeader = tip.toBlockHeader := by
  rcases Option.map_eq_some_iff.mp hAbove.lastHash with ⟨lastFile, hLastFile, hLastHash⟩
  rcases hAbove.taken hEnd with ⟨hFoll, hTakenLast⟩
  rw [← hLastHash] at hFoll
  rcases hMerge data.bulkFiles lastFile _ last.toBlockHeader work
        bulkFiles hFiles hLastFile hTakenLast hFoll hRun with
    ⟨hMerged, hHeaders, hHash⟩
  refine ⟨hMerged, hHeaders, ?_⟩
  rcases hAbove.tree.migrated hLast hBelow bulkFiles with
    ⟨tip', nodes', lowest', hTree, hTip, hLow, hPrev⟩
  refine ⟨tip', nodes', lowest', ⟨hTree, ?_, ?_⟩, hTip⟩
  · rw [hPrev]
    exact hHash
  · change lowest'.height = bulkEnd bulkFiles
    rw [hLow, hFoll.last_height hTakenLast,
      ← hMerged.length_bulkHeaders, ← hFiles.length_bulkHeaders, hHeaders, length_append]

theorem Migrates.partitioned
  {limit : Nat} (hMerge : AppendsHeaders options.mergeIncrementalBlockHeaders)
  (hMigrates : Migrates options limit data final) (hNone : data.lastActiveMinHeight = none)
  (hFiles : BulkFilesFrom 0 data.bulkFiles) (hAbove : AboveBulk data tip nodes lowest) :
  final.lastActiveMinHeight = none ∧ BulkFilesFrom 0 final.bulkFiles ∧ (∃ tip' nodes' lowest',
        AboveBulk final tip' nodes' lowest' ∧ tip'.toBlockHeader = tip.toBlockHeader) ∧
        ∃ migrated, bulkHeaders final.bulkFiles = bulkHeaders data.bulkFiles ++ migrated ∧
            ∀ header ∈ migrated, header ∈ (activeHeaders data.liveHeaders).map (·.toBlockHeader) ∧
                header.height < limit := by
  induction hMigrates generalizing tip lowest nodes with
  | stop data => exact ⟨hNone, hFiles, ⟨tip, nodes, lowest, hAbove, rfl⟩, [], by simp, by simp⟩
  | @step data final tip₀ lowest₀ last nodes₀ bulkFiles count
      work hTree₀ hLast hEnd hLimit hBelow hRun hRest ih =>
      have hTipEq : tip₀ = tip :=
        hAbove.tree.eq_tip hTree₀.chain.tip_mem.1 hTree₀.chain.tip_mem.2 hTree₀.chain.isChainTip
      have hLowEq := hAbove.tree.lowest_eq hTree₀
      subst hTipEq hLowEq
      have hAbove₀ : AboveBulk data tip₀ nodes₀ lowest :=
        ⟨hTree₀, hAbove.lastHash, hAbove.height_eq⟩
      rcases hAbove₀.migrated hMerge hFiles hLast hEnd hBelow hRun with
        ⟨hMerged, hHeaders, tip', nodes', lowest', hNext, hTip⟩
      rcases ih rfl hMerged hNext with
        ⟨hFinalNone, hFinalFiles, ⟨tip'', nodes'', lowest'', hFinal, hFinalTip⟩,
          migrated, hFinalHeaders, hMigrated⟩
      refine ⟨hFinalNone, hFinalFiles, ⟨tip'', nodes'', lowest'', hFinal, hFinalTip.trans hTip⟩,
        ((nodes₀ ++ [lowest]).reverse.take count).map (·.toBlockHeader) ++ migrated, ?_, ?_⟩
      · rw [hFinalHeaders, ← append_assoc, ← hHeaders]
        rfl
      · intro header hIn
        rcases mem_append.mp hIn with hTaken | hLater
        · rcases List.mem_map.mp hTaken with ⟨node, hNode, rfl⟩
          have hChain : node ∈ nodes₀ ++ [lowest] :=
            mem_reverse.mp (mem_of_mem_take hNode)
          have hStore := (hTree₀.chain.mem_iff node).mp hChain
          refine ⟨List.mem_map_of_mem ?_, ?_⟩
          · rw [activeHeaders, mem_filter]
            exact hStore
          · have hTaken₀ := hAbove₀.taken hEnd
            have hLe := hTaken₀.1.height_le hTaken₀.2 (List.mem_map_of_mem hNode)
            exact Nat.lt_of_le_of_lt hLe hLimit
        · rcases hMigrated header hLater with ⟨hAct, hBelowLimit⟩
          exact ⟨activeHeaders_migrated hAct, hBelowLimit⟩

-- Runs of Insertions

variable {header : BlockHeader}

/-
  The headers an insertion moves to bulk were active below
  the threshold under the new tip, which stays in `final`.
-/
structure MigratesBelow
  (options : Options) (data : Storage) (header : BlockHeader) (final : Storage)
  (migrated : List BlockHeader) (stored : Storage) (tip lowest : LiveBlockHeader) : Prop where
  stored_headers :
    stored.liveHeaders.map (·.toBlockHeader) = data.liveHeaders.map (·.toBlockHeader) ++ [header]
  stored_chain : LiveChain stored.liveHeaders tip lowest
  pruned : final = finalState (pruneLiveBlockHeaders tip.height options stored)
  was_active : ∀ moved ∈ migrated, moved ∈ (activeHeaders stored.liveHeaders).map (·.toBlockHeader)
  below : ∀ moved ∈ migrated, (moved.height : Int) < tip.height - options.liveHeightThreshold + 1
  tip_stays : (activeTips final.liveHeaders).map (·.toBlockHeader) = [tip.toBlockHeader]

def InsertMigrates
  (options : Options) (data : Storage) (header : BlockHeader) (final : Storage) : Prop :=
  ∃ migrated, bulkHeaders final.bulkFiles = bulkHeaders data.bulkFiles ++ migrated ∧
      (migrated = [] ∨ ∃ stored tip lowest,
          MigratesBelow options data header final migrated stored tip lowest)

/- A safe insertion made in a run. -/
def SafeInsertStep (options : Options) (data final : Storage) : Prop :=
  ∃ header, InsertsSafely options data header ∧
      finalState (insertHeader header options data) = final

theorem InsertOutcome.partitioned (hMerge : AppendsHeaders options.mergeIncrementalBlockHeaders)
  (hOut : InsertOutcome options data header final) (hData : Partitioned data) :
  Partitioned final ∧ InsertMigrates options data header final := by
  cases hOut with
  | unchanged hLive hBulk hNone hMax =>
    constructor
    · constructor
      · rw [hNone]
        exact hData.lastActiveMinHeight
      · rw [hBulk]
        exact hData.contiguous
      · rw [hLive]
        rcases hData.live with hEmpty | ⟨tip, nodes, lowest, hAbove⟩
        · exact .inl hEmpty
        · right
          refine ⟨tip, nodes, lowest, ?_, ?_, ?_⟩
          · rw [hLive]
            exact hAbove.tree.mono hMax
          · rw [hBulk]
            exact hAbove.lastHash
          · rw [hBulk]
            exact hAbove.height_eq
    · exact ⟨[], by rw [hBulk]; simp, .inl rfl⟩
  | @first final newHeader lastFile hEmpty hFile hHash hHeight
      hTree hBulk hNone =>
      constructor
      · constructor
        · rw [hNone]
          exact hData.lastActiveMinHeight
        · rw [hBulk]
          exact hData.contiguous
        · right
          refine ⟨newHeader, [], newHeader, hTree, ?_, ?_⟩
          · rw [hBulk, hFile, hHash]
            rfl
          · rw [hBulk, hHeight, hData.contiguous.last_end hFile]
            exact Nat.zero_add _
      · exact ⟨[], by rw [hBulk]; simp, .inl rfl⟩
  | @stored stored final tip lowest _ priorLowest nodes _
      hPrior hTree hLowest hHeaders hBulk hNone hFinal =>
      have hStoreNone : stored.lastActiveMinHeight = none := by
        rw [hNone]
        exact hData.lastActiveMinHeight
      have hStoreFiles : BulkFilesFrom 0 stored.bulkFiles := by
        rw [hBulk]
        exact hData.contiguous
      have hAbove : AboveBulk stored tip nodes lowest := by
        rcases hData.live with hEmpty | ⟨_, _, lowest', hAbove⟩
        · have hIn := hPrior.chain.tip_mem.1
          rw [hEmpty] at hIn
          cases hIn
        · have hEq := hPrior.lowest_eq hAbove.tree
          subst hEq
          constructor
          · exact hTree
          · rw [hBulk, hLowest.2]
            exact hAbove.lastHash
          · rw [hBulk, hLowest.1]
            exact hAbove.height_eq
      rcases hFinal with rfl | rfl
      · exact ⟨⟨hStoreNone, hStoreFiles, .inr ⟨tip, nodes, lowest, hAbove⟩⟩,
          [], by rw [hBulk]; simp, .inl rfl⟩
      · have hMigrates := pruneLiveBlockHeaders_migrates options hTree hStoreNone
        rcases hMigrates.partitioned hMerge hStoreNone hStoreFiles hAbove with
          ⟨hFinalNone, hFinalFiles, ⟨tip', nodes', lowest', hFinal, hTip⟩, migrated,
            hFinalHeaders, hMigrated⟩
        rw [hBulk] at hFinalHeaders
        refine ⟨⟨hFinalNone, hFinalFiles, .inr ⟨tip', nodes', lowest', hFinal⟩⟩,
          migrated, hFinalHeaders, .inr ⟨stored, tip, lowest, ?_⟩⟩
        constructor
        · exact hHeaders
        · exact hTree.liveChain
        · rfl
        · exact fun moved hIn => (hMigrated moved hIn).1
        · intro moved hIn
          have hBelow := (hMigrated moved hIn).2
          have hThreshold := options.liveHeightThreshold_pos
          omega
        · rw [hFinal.tree.activeTips_eq, map_singleton, hTip]

theorem insertHeader_partitioned (hMerge : AppendsHeaders options.mergeIncrementalBlockHeaders)
  (hSafe : InsertsSafely options data header) (hData : Partitioned data) :
  Partitioned (finalState (insertHeader header options data)) ∧ InsertMigrates options data header
      (finalState (insertHeader header options data)) := by
  have hOut :
      InsertOutcome options data header (finalState (insertHeader header options data)) := by
    rcases hData.live with hEmpty | ⟨tip, nodes, lowest, hAbove⟩
    · exact insertHeader_outcome_of_empty hEmpty
    · exact insertHeader_outcome hAbove.tree hSafe
  exact hOut.partitioned hMerge hData

/-
  In every run of safe insertions, the ranges of bulk and live storage meet after each insertion,
  and what an insertion moves to bulk was active and below the threshold.
-/
theorem partition_of_safe_inserts
  (options : Options) (hMerge : AppendsHeaders options.mergeIncrementalBlockHeaders)
  (bulkFiles : List BulkFile) (hFiles : BulkFilesFrom 0 bulkFiles) (data : Storage)
  (hRun : Relation.ReflTransGen (SafeInsertStep options) { bulkFiles := bulkFiles } data) :
  Partition data ∧ ∀ header, InsertsSafely options data header →
      InsertMigrates options data header (finalState (insertHeader header options data)) := by
  have hData : Partitioned data := by
    induction hRun with
    | refl => exact ⟨rfl, hFiles, .inl rfl⟩
    | tail _ hStep ih =>
      rcases hStep with ⟨header, hSafe, rfl⟩
      exact (insertHeader_partitioned hMerge hSafe ih).1
  constructor
  · exact hData.partition
  · intro header hSafe
    exact (insertHeader_partitioned hMerge hSafe hData).2

-- Insertions of Mined Headers

theorem appendBulkFile_appends : AppendsHeaders appendBulkFile := by
  intro bulkFiles lastFile headers lastHeader work merged hFiles hLastFile hLastHeader hFoll hRun
  unfold appendBulkFile at hRun
  simp only [hLastFile, hLastHeader] at hRun
  rcases bind_eq_ok_iff.mp hRun with ⟨lastChainWork, _, hMerged⟩
  cases hMerged
  have hEnd := hFiles.last_end hLastFile
  rw [Nat.zero_add] at hEnd
  refine ⟨hFiles.append ?_ ?_, ?_, ?_⟩
  · rw [hEnd, Nat.zero_add]
  · rw [hEnd]
    exact hFoll.map_height
  · simp [bulkHeaders]
  · simp

/- An insertion made in a run. -/
def InsertStep (options : Options) (data final : Storage) : Prop :=
  ∃ header, finalState (insertHeader header options data) = final

/- Insertions are a run. -/
theorem insertStep_insertAll (options : Options) (data : Storage) (headers : List BlockHeader) :
  Relation.ReflTransGen (InsertStep options) data (insertAll options headers data) := by
  induction headers generalizing data with
  | nil => exact .refl
  | cons header headers ih =>
    apply Relation.ReflTransGen.head _ (ih _)
    exact ⟨header, rfl⟩

theorem safeInsertStep_insertAll (options : Options) (data : Storage) (headers : List BlockHeader)
  (hSafe : insertAllSafely options headers data = true) :
  Relation.ReflTransGen (SafeInsertStep options) data (insertAll options headers data) := by
  induction headers generalizing data with
  | nil => exact .refl
  | cons header headers ih =>
    rw [insertAllSafely, Bool.and_eq_true] at hSafe
    apply Relation.ReflTransGen.head _ (ih _ hSafe.2)
    exact ⟨header, insertsSafely_of_belowLimit options hSafe.1, rfl⟩

def shortOptions : Options :=
  { regtestOptions with
    liveHeightThreshold := 1
    liveHeightThreshold_pos := Nat.one_pos }

theorem partition_of_safe_inserts_migrated :
  Partition (insertAll shortOptions [firstHeader, secondHeader] { bulkFiles := [genesisFile] }) ∧
    ∀ header, InsertsSafely shortOptions (insertAll shortOptions
            [firstHeader, secondHeader]
            { bulkFiles := [genesisFile] })
          header →
        InsertMigrates shortOptions (insertAll shortOptions
            [firstHeader, secondHeader]
            { bulkFiles := [genesisFile] })
          header (finalState (insertHeader header shortOptions (insertAll shortOptions
                [firstHeader, secondHeader]
                { bulkFiles := [genesisFile] }))) := by
  apply partition_of_safe_inserts shortOptions appendBulkFile_appends [genesisFile]
      ⟨rfl, rfl, trivial⟩
  apply safeInsertStep_insertAll
  decide +kernel

/- A header of more work after a tip that was replaced. -/
def returnHeader : BlockHeader :=
  minedHeader secondHeader.hash 3 0x203fffff 1 '1'

def returnTipHeader : BlockHeader :=
  minedHeader returnHeader.hash 4 0x207fffff 3 '0'

def gapHeaders : List BlockHeader :=
  [firstHeader, secondHeader, sideHeader, sideTipHeader, returnHeader, returnTipHeader]

/-
  The chain returns to a tip that was replaced, whose header
  stays inactive, and the migration reveals the gap.
-/
theorem not_partition_of_inserts :
  ¬ ∀ (options : Options)
      (bulkFiles : List BulkFile)
      (data : Storage),
    AppendsHeaders options.mergeIncrementalBlockHeaders →
      BulkFilesFrom 0 bulkFiles → Relation.ReflTransGen (InsertStep options)
            { bulkFiles := bulkFiles } data →
          Partition data := by
  intro hAll
  have hRun := insertStep_insertAll regtestOptions { bulkFiles := [genesisFile] } gapHeaders
  have hGap : getAvailableHeightRanges (insertAll regtestOptions gapHeaders
            { bulkFiles := [genesisFile] }) =
        .error (.error ("There is a gap or overlap between bulk and " ++
            "live header storage.")) := by
    decide +kernel
  rcases (hAll regtestOptions [genesisFile] _ appendBulkFile_appends ⟨rfl, rfl, trivial⟩
        hRun).ranges with
    ⟨bulk, live, hRanges, _⟩
  rw [hGap] at hRanges
  cases hRanges

end TsStack.Chaintracks
