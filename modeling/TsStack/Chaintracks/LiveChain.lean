import TsStack.Chaintracks.Insertion

/-
  The live chain over runs of the storage.

  A run starts with no live headers and makes insertions and
  deletions of older headers.  Its live headers stay a tree
  while every insertion is safe.
-/

-- The Live Chain

open List

namespace TsStack.Chaintracks

def ReachesActive (live : List LiveBlockHeader) (header : LiveBlockHeader) : Prop :=
  ∃ branch ancestor, RelationPath ParentLink header branch ancestor ∧
      (∀ node ∈ branch ++ [ancestor], node ∈ live) ∧ ancestor.isActive = true

/-
  The active headers are one for each height from the lowest to the tip, each linked to the one
  below, and the tip has the most work of the headers that reach them.
-/
structure LiveChain (live : List LiveBlockHeader) (tip lowest : LiveBlockHeader) : Prop where
  activeTips_eq : activeTips live = [tip]
  lowest_mem : lowest ∈ activeHeaders live
  one_each : ∀ height, lowest.height ≤ height → height ≤ tip.height →
      ∃ header, (activeHeaders live).filter (·.height = height) = [header]
  bounds : ∀ header ∈ activeHeaders live, lowest.height ≤ header.height ∧ header.height ≤ tip.height
  linked : ∀ header ∈ activeHeaders live, lowest.height < header.height →
        ∃ parent ∈ activeHeaders live, ParentLink header parent
  chainWork_le : ∀ header ∈ live, ReachesActive live header → header.chainWork ≤ tip.chainWork

variable {live : List LiveBlockHeader}

theorem LiveTree.liveChain
  {nodes : List LiveBlockHeader} {tip lowest : LiveBlockHeader} {maxHeaderId : Nat}
  (hTree : LiveTree live maxHeaderId tip nodes lowest) : LiveChain live tip lowest := by
  have hLive : live.Nodup := hTree.linked.nodup_ids.of_map
  have hAct
      (header : LiveBlockHeader) :
      header ∈ activeHeaders live ↔ header ∈ nodes ++ [lowest] := by
    rw [activeHeaders, mem_filter, hTree.chain.mem_iff]
  constructor
  · exact hTree.activeTips_eq
  · rw [hAct]
    simp
  · intro height hLow hHigh
    rcases hTree.chain.path.exists_measure ParentLink.height hLow hHigh with
      ⟨header, hHeader, hHeight⟩
    have hPerm : ((activeHeaders live).filter (·.height = height)).Perm [header] := by
      apply (perm_ext_iff_of_nodup ((hLive.filter _).filter _)
        (nodup_singleton header)).mpr
      intro other
      rw [mem_filter, mem_singleton]
      constructor
      · rintro ⟨hOther, hSame⟩
        have hOtherIn := (hAct other).mp hOther
        have hSameHeight : other.height = height := by simpa using hSame
        exact hTree.chain.path.eq_of_measure_eq ParentLink.height hOtherIn hHeader
          (hSameHeight.trans hHeight.symm)
      · rintro rfl
        exact ⟨(hAct other).mpr hHeader, by simpa⟩
    exact ⟨header, perm_singleton.mp hPerm⟩
  · intro header hHeader
    have hIn := (hAct header).mp hHeader
    have hBounds := hTree.chain.path.measure_bounds ParentLink.height hIn
    exact hBounds
  · intro header hHeader hAbove
    have hIn := (hAct header).mp hHeader
    rcases mem_concat_iff.mp hIn with hNode | hLast
    · rcases hTree.chain.path.exists_next hNode with ⟨parent, hParent, hLink⟩
      exact ⟨parent, (hAct parent).mpr hParent, hLink⟩
    · rw [hLast] at hAbove
      exact absurd hAbove (Nat.lt_irrefl _)
  · intro header hIn _
    exact hTree.chain.chainWork_le header hIn

-- Calls and Runs

open StateProgram (finalState)

inductive Call where
| insert (header : BlockHeader)
| deleteOlder (maxHeight : Nat)
deriving DecidableEq, Repr

variable (options : Options)

def Call.next (data : Storage) : Call → Storage
| .insert header => finalState (insertHeader header options data)
| .deleteOlder maxHeight => finalState (deleteOlderLiveBlockHeaders maxHeight options data)

def Call.Allowed (data : Storage) : Call → Prop
| .insert _ => True
| .deleteOlder maxHeight => ∀ tip ∈ activeTips data.liveHeaders, maxHeight < tip.height

/- The calls that keep the live chain. -/
def Call.Safe (data : Storage) : Call → Prop
| .insert header => InsertsSafely options data header
| .deleteOlder _ => True

def CallStep (data final : Storage) : Prop :=
  ∃ call : Call, call.Allowed data ∧ call.next options data = final

/- A call of a run that keeps the live chain. -/
def SafeCallStep (data final : Storage) : Prop :=
  ∃ call : Call, call.Allowed data ∧ call.Safe options data ∧ call.next options data = final

def insertAll (options : Options) :
  List BlockHeader → Storage → Storage
| [], data => data
| header :: headers, data => insertAll options headers ((Call.insert header).next options data)

theorem run_insertHeaders (data : Storage) (headers : List BlockHeader) :
  Relation.ReflTransGen (CallStep options) data (insertAll options headers data) := by
  induction headers generalizing data with
  | nil => exact .refl
  | cons header headers ih =>
    apply Relation.ReflTransGen.head _ (ih _)
    exact ⟨.insert header, trivial, rfl⟩

-- Safe Runs

variable {options : Options} {data final : Storage}

structure LiveTreeStorage (data : Storage) : Prop where
  lastActiveMinHeight : data.lastActiveMinHeight = none
  tree : data.liveHeaders = [] ∨ ∃ tip nodes lowest,
        LiveTree data.liveHeaders data.maxHeaderId tip nodes lowest

/- A tree stays one with a greater bound on its ids. -/
theorem LiveTree.mono
  {nodes : List LiveBlockHeader} {tip lowest : LiveBlockHeader} {maxHeaderId more : Nat}
  (hTree : LiveTree live maxHeaderId tip nodes lowest) (hLe : maxHeaderId ≤ more) :
  LiveTree live more tip nodes lowest where
  linked :=
    { hTree.linked with
      headerId_le := fun header hIn => Nat.le_trans (hTree.linked.headerId_le header hIn) hLe }
  chain := hTree.chain

theorem InsertOutcome.liveTreeStorage
  {header : BlockHeader} (hOut : InsertOutcome options data header final)
  (hData : LiveTreeStorage data) : LiveTreeStorage final := by
  cases hOut with
  | unchanged hLive hBulk hNone hMax =>
    constructor
    · rw [hNone]
      exact hData.lastActiveMinHeight
    · rw [hLive]
      rcases hData.tree with hEmpty | ⟨tip, nodes, low, hTree⟩
      · exact .inl hEmpty
      · exact .inr ⟨tip, nodes, low, hTree.mono hMax⟩
  | @first final newHeader _ hEmpty hFile hHash hHeight
      hTree hBulk hNone =>
      constructor
      · rw [hNone]
        exact hData.lastActiveMinHeight
      · exact .inr ⟨newHeader, [], newHeader, hTree⟩
  | @stored stored final tip lowest _ _ nodes _ hPrior hTree
      hLowest hHeaders hBulk hNone hFinal =>
      have hStoreNone : stored.lastActiveMinHeight = none := by
        rw [hNone]
        exact hData.lastActiveMinHeight
      rcases hFinal with rfl | rfl
      · exact ⟨hStoreNone, .inr ⟨tip, nodes, lowest, hTree⟩⟩
      · have hMigrates := pruneLiveBlockHeaders_migrates options hTree hStoreNone
        rcases hMigrates.liveTree hTree hStoreNone with
          ⟨hFinalNone, tip', nodes', lowest', hFinal, _⟩
        exact ⟨hFinalNone, .inr ⟨tip', nodes', lowest', hFinal⟩⟩

theorem deleteOlder_liveTreeStorage
  {maxHeight : Nat} (hAllowed : ∀ tip ∈ activeTips data.liveHeaders, maxHeight < tip.height)
  (hData : LiveTreeStorage data) :
  LiveTreeStorage (finalState (deleteOlderLiveBlockHeaders maxHeight options data)) := by
  unfold deleteOlderLiveBlockHeaders
  cases hValid : validateHeight maxHeight "maxHeight" with
  | error error => exact hData
  | ok _ =>
    constructor
    · exact hData.lastActiveMinHeight
    · rcases hData.tree with hEmpty | ⟨tip, nodes, lowest, hTree⟩
      · left
        change keepNewerHeaders data.liveHeaders _ = []
        rw [hEmpty]
        rfl
      · right
        have hTip : tip ∈ activeTips data.liveHeaders := by
          rw [hTree.activeTips_eq]
          exact mem_singleton_self tip
        rcases hTree.keepNewer (hAllowed tip hTip) with ⟨bottom, nodes', _, _, hNewer⟩
        exact ⟨_, nodes', _, hNewer⟩

theorem SafeCallStep.liveTreeStorage
  (hStep : SafeCallStep options data final) (hData : LiveTreeStorage data) :
  LiveTreeStorage final := by
  rcases hStep with ⟨call, hAllowed, hSafe, rfl⟩
  cases call with
  | insert header =>
    have hOut :
        InsertOutcome options data header (finalState (insertHeader header options data)) := by
      rcases hData.tree with hEmpty | ⟨tip, nodes, lowest, hTree⟩
      · exact insertHeader_outcome_of_empty hEmpty
      · exact insertHeader_outcome hTree hSafe
    exact hOut.liveTreeStorage hData
  | deleteOlder maxHeight => exact deleteOlder_liveTreeStorage hAllowed hData

theorem liveTreeStorage_of_safe_run {bulkFiles : List BulkFile}
  (hRun : Relation.ReflTransGen (SafeCallStep options) { bulkFiles := bulkFiles } data) :
  LiveTreeStorage data := by
  induction hRun with
  | refl => exact ⟨rfl, .inl rfl⟩
  | tail _ hStep ih => exact hStep.liveTreeStorage ih

theorem liveChain_of_safe_run (options : Options) (bulkFiles : List BulkFile) (data : Storage)
  (hRun : Relation.ReflTransGen (SafeCallStep options) { bulkFiles := bulkFiles } data) :
  data.liveHeaders = [] ∨ ∃ tip lowest, LiveChain data.liveHeaders tip lowest := by
  rcases (liveTreeStorage_of_safe_run hRun).tree with hEmpty | ⟨tip, nodes, lowest, hTree⟩
  · exact .inl hEmpty
  · exact .inr ⟨tip, lowest, hTree.liveChain⟩

-- Runs on Mined Headers

def minedHeader (previousHash : JsString) (height bits nonce : Nat) (root : Char) : BlockHeader :=
  let header : BlockHeader :=
    { version := 1
      previousHash := previousHash
      merkleRoot := List.replicate 64 root
      time := height
      bits := bits
      nonce := nonce
      height := height
      hash := [] }
  { header with hash := blockHash header }

def appendBulkFile (bulkFiles : List BulkFile) (headers : List BlockHeader)
  (work : Nat) : Except ChaintracksError (List BulkFile) :=
  match bulkFiles.getLast?, headers.getLast? with
  | some lastFile, some lastHeader => do
      let lastChainWork ← addWork work lastFile.lastChainWork
      return bulkFiles ++
        [{ firstHeight := lastFile.firstHeight + lastFile.count
           count := headers.length
           lastHash := lastHeader.hash
           lastChainWork := lastChainWork
           data := headers }]
  | _, _ => .ok bulkFiles

def regtestOptions : Options where
  chain := .regtest
  liveHeightThreshold := 3
  bulkMigrationChunkSize := 1
  mergeIncrementalBlockHeaders := appendBulkFile
  liveHeightThreshold_pos := by decide
  bulkMigrationChunkSize_pos := by decide
  bulkMigrationChunkSize_le := by decide

def genesisHeader : BlockHeader :=
  minedHeader (List.replicate 64 '0') 0 0x207fffff 0 '0'

def genesisFile : BulkFile where
  firstHeight := 0
  count := 1
  lastHash := genesisHeader.hash
  lastChainWork := 2
  data := [genesisHeader]

def firstHeader : BlockHeader :=
  minedHeader genesisHeader.hash 1 0x207fffff 1 '0'

def secondHeader : BlockHeader :=
  minedHeader firstHeader.hash 2 0x207fffff 3 '0'

/- A header of the same work beside it. -/
def sideHeader : BlockHeader :=
  minedHeader firstHeader.hash 2 0x207fffff 1 '1'

def sideTipHeader : BlockHeader :=
  minedHeader sideHeader.hash 3 0x207fffff 0 '0'

/- A header of more work beside the second one. -/
def heavyHeader : BlockHeader :=
  minedHeader firstHeader.hash 2 0x203fffff 0 '2'

theorem not_liveChain_of_run :
  ¬ ∀ (options : Options)
      (bulkFiles : List BulkFile)
      (data : Storage),
    Relation.ReflTransGen (CallStep options) { bulkFiles := bulkFiles } data →
      data.liveHeaders = [] ∨ ∃ tip lowest, LiveChain data.liveHeaders tip lowest := by
  intro hAll
  have hRun := run_insertHeaders regtestOptions
      { bulkFiles := [genesisFile] }
      [firstHeader, secondHeader, heavyHeader]
  have hTips : (activeTips (insertAll regtestOptions
          [firstHeader, secondHeader, heavyHeader]
          { bulkFiles := [genesisFile] }).liveHeaders).length =
        2 := by
    decide +kernel
  rcases hAll _ _ _ hRun with hEmpty | ⟨tip, lowest, hChain⟩
  · rw [hEmpty] at hTips
    cases hTips
  · rw [hChain.activeTips_eq] at hTips
    cases hTips

/- A header after `oneBack` stays on a side branch. -/
def staysAside (options : Options) (data : Storage) (header : BlockHeader)
  (oneBack : LiveBlockHeader) : Bool :=
  match convertBitsToWork header.bits options.chain, findPriorTip data.liveHeaders oneBack with
  | .ok work, .ok (some priorTip) => oneBack.chainWork + work ≤ priorTip.chainWork
  | _, _ => true

/-
  A check for safe insertions: the heights are within the traversal limit, and the header stays on
  a side branch or the flags of its parent agree.
-/
def insertsSafelyBelowLimit (options : Options) (data : Storage) (header : BlockHeader) : Bool :=
  data.liveHeaders.all (·.height ≤ MAX_STORAGE_TRAVERSAL) &&
    (data.liveHeaders.find? (·.hash = header.previousHash)).all
      fun oneBack => staysAside options data header oneBack || oneBack.isActive = oneBack.isChainTip

theorem mem_of_findPriorTip {oneBack priorTip : LiveBlockHeader} (hMem : oneBack ∈ live)
  (hFind : findPriorTip live oneBack = .ok (some priorTip)) : priorTip ∈ live := by
  unfold findPriorTip at hFind
  split_ifs at hFind
  · cases hFind
    exact hMem
  · have hTips : (activeTips live).head? = some priorTip := by
      cases hEq : activeTips live with
      | nil => simp [hEq] at hFind
      | cons first rest =>
        cases rest with
        | nil => simpa [hEq] using hFind
        | cons => simp [hEq] at hFind
    exact mem_of_mem_filter (mem_of_head? hTips)

theorem insertsSafely_of_belowLimit (options : Options) {header : BlockHeader}
  (hSafe : insertsSafelyBelowLimit options data header = true) :
  InsertsSafely options data header := by
  rw [insertsSafelyBelowLimit, Bool.and_eq_true] at hSafe
  intro oneBack priorTip activeAncestor hTip
  have hMem := mem_of_find?_eq_some hTip.found
  constructor
  · have hCheck := hSafe.2
    rw [hTip.found, Option.all_some, Bool.or_eq_true] at hCheck
    rcases hCheck with hAside | hFlags
    · rcases hTip.moreWork with ⟨work, chainWork, hWork, hSum, hMore⟩
      rw [(addWork_eq_ok_iff.mp hSum).2] at hMore
      unfold staysAside at hAside
      simp only [hWork, hTip.tip, decide_eq_true_eq] at hAside
      unfold isMoreWork at hMore
      rw [decide_eq_true_eq] at hMore
      omega
    · simpa using hFlags
  · have hPriorTip := mem_of_findPriorTip hMem hTip.tip
    have hHeight := List.all_eq_true.mp hSafe.1 priorTip hPriorTip
    have hLe : priorTip.height ≤ MAX_STORAGE_TRAVERSAL := by simpa using hHeight
    omega

/- Each of the insertions is safe where it is made. -/
def insertAllSafely (options : Options) :
  List BlockHeader → Storage → Bool
| [], _ => true
| header :: headers, data =>
  insertsSafelyBelowLimit options data header &&
    insertAllSafely options headers ((Call.insert header).next options data)

theorem safe_run_insertHeaders (options : Options) (data : Storage) (headers : List BlockHeader)
  (hSafe : insertAllSafely options headers data = true) :
  Relation.ReflTransGen (SafeCallStep options) data (insertAll options headers data) := by
  induction headers generalizing data with
  | nil => exact .refl
  | cons header headers ih =>
    rw [insertAllSafely, Bool.and_eq_true] at hSafe
    apply Relation.ReflTransGen.head _ (ih _ hSafe.2)
    exact ⟨.insert header, trivial, insertsSafely_of_belowLimit options hSafe.1, rfl⟩

theorem insertAllSafely_of_append {headers more : List BlockHeader}
  (hSafe : insertAllSafely options (headers ++ more) data = true) :
  insertAllSafely options headers data = true := by
  induction headers generalizing data with
  | nil => rfl
  | cons header headers ih =>
    rw [cons_append, insertAllSafely, Bool.and_eq_true] at hSafe
    rw [insertAllSafely, Bool.and_eq_true]
    exact ⟨hSafe.1, ih hSafe.2⟩

theorem insertAllSafely_sideTip :
  insertAllSafely regtestOptions [firstHeader, secondHeader, sideHeader, sideTipHeader]
    { bulkFiles := [genesisFile] } = true := by
  decide +kernel

/- Insertions that replace the active chain safely. -/
theorem liveChain_of_safe_run_reorganization :
  (insertAll regtestOptions
        [firstHeader, secondHeader, sideHeader, sideTipHeader]
        { bulkFiles := [genesisFile] }).liveHeaders = [] ∨
    ∃ tip lowest, LiveChain (insertAll regtestOptions
          [firstHeader, secondHeader, sideHeader, sideTipHeader]
          { bulkFiles := [genesisFile] }).liveHeaders
        tip lowest := by
  apply liveChain_of_safe_run regtestOptions [genesisFile]
  apply safe_run_insertHeaders
  exact insertAllSafely_sideTip

end TsStack.Chaintracks
