import TsStack.Chaintracks.Storage
import TsStack.Lib.RelationPath

/-
  The tree of live headers and the active chain in it.

  The active headers are those of one path of parent links,
  from the tip down to the lowest active header.
-/

-- Trees and Chains

open List Option

namespace TsStack.Chaintracks

/- What `validateStoredParentLink` requires of a child. -/
def ParentLink (child parent : LiveBlockHeader) : Prop :=
  child.previousHeaderId = some parent.headerId ∧
    child.previousHash = parent.hash ∧ child.height = parent.height + 1

/-
  Ids are distinct, references lead to parents, and a header with a child is not marked as a tip.
-/
structure LinkedHeaders (live : List LiveBlockHeader) (maxHeaderId : Nat) : Prop where
  nodup_ids : (live.map (·.headerId)).Nodup
  headerId_pos : ∀ header ∈ live, 1 ≤ header.headerId
  headerId_le : ∀ header ∈ live, header.headerId ≤ maxHeaderId
  height_le : ∀ header ∈ live, header.height ≤ 0x7fffffff
  parent : ∀ header ∈ live, ∀ headerId, header.previousHeaderId = some headerId →
        ∃ parent ∈ live, parent.headerId = headerId ∧ ParentLink header parent
  childless : ∀ child ∈ live, ∀ parent ∈ live,
      child.previousHeaderId = some parent.headerId → parent.isChainTip = false

structure ActiveChain
  (live : List LiveBlockHeader) (tip : LiveBlockHeader) (nodes : List LiveBlockHeader)
  (lowest : LiveBlockHeader) : Prop where
  path : RelationPath ParentLink tip nodes lowest
  mem_iff : ∀ header, header ∈ nodes ++ [lowest] ↔ header ∈ live ∧ header.isActive = true
  isChainTip : tip.isChainTip = true
  chainWork_le : ∀ header ∈ live, header.chainWork ≤ tip.chainWork

structure LiveTree (live : List LiveBlockHeader) (maxHeaderId : Nat) (tip : LiveBlockHeader)
  (nodes : List LiveBlockHeader) (lowest : LiveBlockHeader) : Prop where
  linked : LinkedHeaders live maxHeaderId
  chain : ActiveChain live tip nodes lowest

theorem ParentLink.height (child parent : LiveBlockHeader) (hLink : ParentLink child parent) :
  child.height = parent.height + 1 :=
  hLink.2.2

-- Records by Id

variable {header : LiveBlockHeader} {live : List LiveBlockHeader}

variable {f : LiveBlockHeader → LiveBlockHeader} {maxHeaderId maxHeight : Nat}

theorem mem_of_getHeader {headerId : Nat} (hGet : getHeader live headerId = some header) :
  header ∈ live ∧ header.headerId = headerId := by
  constructor
  · exact mem_of_find?_eq_some hGet
  · simpa using find?_some hGet

namespace LinkedHeaders

variable {live : List LiveBlockHeader} {maxHeaderId : Nat}

theorem eq_of_headerId
  (hLinked : LinkedHeaders live maxHeaderId) {left right : LiveBlockHeader} (hLeft : left ∈ live)
  (hRight : right ∈ live) (hEq : left.headerId = right.headerId) : left = right :=
  inj_on_of_nodup_map hLinked.nodup_ids hLeft hRight hEq

theorem getHeader_eq (hLinked : LinkedHeaders live maxHeaderId)
  (hMem : header ∈ live) : getHeader live header.headerId = some header := by
  cases hGet : getHeader live header.headerId with
  | none =>
    have hNone := find?_eq_none.mp hGet header hMem
    simp at hNone
  | some found =>
    rcases mem_of_getHeader hGet with ⟨hFound, hId⟩
    rw [hLinked.eq_of_headerId hFound hMem hId]

end LinkedHeaders

theorem setHeader_of_mem {stored : LiveBlockHeader} (hStore : stored ∈ live)
  (hId : stored.headerId = header.headerId) : setHeader live header = live.map fun stored =>
      if stored.headerId = header.headerId then header
      else
        stored := by
  unfold setHeader
  rw [if_pos]
  rw [List.any_eq_true]
  exact ⟨stored, hStore, by simpa using hId⟩

/- Adding a record with a new key. -/
theorem setHeader_of_fresh (hFresh : ∀ stored ∈ live, stored.headerId ≠ header.headerId) :
  setHeader live header = live ++ [header] := by
  unfold setHeader
  rw [if_neg]
  intro hAny
  rcases List.any_eq_true.mp hAny with ⟨stored, hStore, hId⟩
  exact hFresh stored hStore (by simpa using hId)

-- Changing Flags

/- Set `isActive` of the headers with some ids. -/
def setActive (ids : List Nat) (value : Bool) (header : LiveBlockHeader) : LiveBlockHeader :=
  if header.headerId ∈ ids then { header with isActive := value }
  else header

/- Clear `isChainTip` of the header with an id. -/
def clearTip (headerId : Nat) (header : LiveBlockHeader) : LiveBlockHeader :=
  if header.headerId = headerId then { header with isChainTip := false }
  else header

/- The function changes flags only. -/
def Reflags (f : LiveBlockHeader → LiveBlockHeader) : Prop :=
  ∀ header, ∃ isActive isChainTip, f header =
      { header with
        isActive := isActive, isChainTip := isChainTip }

theorem reflags_setActive (ids : List Nat) (value : Bool) : Reflags (setActive ids value) := by
  intro header
  unfold setActive
  split_ifs
  · exact ⟨value, header.isChainTip, rfl⟩
  · exact ⟨header.isActive, header.isChainTip, rfl⟩

theorem reflags_clearTip (headerId : Nat) : Reflags (clearTip headerId) := by
  intro header
  unfold clearTip
  split_ifs
  · exact ⟨header.isActive, false, rfl⟩
  · exact ⟨header.isActive, header.isChainTip, rfl⟩

theorem Reflags.comp {g : LiveBlockHeader → LiveBlockHeader} (hf : Reflags f) (hg : Reflags g) :
  Reflags (f ∘ g) := by
  intro header
  rcases hg header with ⟨active, isTip, hEq⟩
  rcases hf (g header) with ⟨active', isTip', hEq'⟩
  refine ⟨active', isTip', ?_⟩
  rw [Function.comp_apply, hEq', hEq]

section

variable {f : LiveBlockHeader → LiveBlockHeader} (hf : Reflags f)

include hf

theorem Reflags.headerId (header : LiveBlockHeader) : (f header).headerId = header.headerId := by
  rcases hf header with ⟨_, _, hEq⟩
  rw [hEq]

theorem Reflags.previousHeaderId (header : LiveBlockHeader) : (f header).previousHeaderId =
    header.previousHeaderId := by
  rcases hf header with ⟨_, _, hEq⟩
  rw [hEq]

theorem Reflags.height (header : LiveBlockHeader) : (f header).height = header.height := by
  rcases hf header with ⟨_, _, hEq⟩
  rw [hEq]

theorem Reflags.chainWork (header : LiveBlockHeader) : (f header).chainWork = header.chainWork := by
  rcases hf header with ⟨_, _, hEq⟩
  rw [hEq]

theorem Reflags.toBlockHeader (header : LiveBlockHeader) :
  (f header).toBlockHeader = header.toBlockHeader := by
  rcases hf header with ⟨_, _, hEq⟩
  rw [hEq]

theorem Reflags.previousHash (header : LiveBlockHeader) :
  (f header).previousHash = header.previousHash := by
  rcases hf header with ⟨_, _, hEq⟩
  rw [hEq]

theorem Reflags.parentLink {child parent : LiveBlockHeader} (hLink : ParentLink child parent) :
  ParentLink (f child) (f parent) := by
  rcases hf child with ⟨_, _, hChild⟩
  rcases hf parent with ⟨_, _, hParent⟩
  rw [hChild, hParent]
  exact hLink

end

theorem LinkedHeaders.map (hLinked : LinkedHeaders live maxHeaderId) (hf : Reflags f)
  (hTips : ∀ header, header.isChainTip = false → (f header).isChainTip = false) :
  LinkedHeaders (live.map f) maxHeaderId where
  nodup_ids := by
    rw [List.map_map]
    have hIds : ((·.headerId) ∘ f : LiveBlockHeader → Nat) = (·.headerId) := funext hf.headerId
    rw [hIds]
    exact hLinked.nodup_ids
  headerId_pos := by
    intro _ hMem
    rcases List.mem_map.mp hMem with ⟨header, hIn, rfl⟩
    rw [hf.headerId]
    exact hLinked.headerId_pos header hIn
  headerId_le := by
    intro _ hMem
    rcases List.mem_map.mp hMem with ⟨header, hIn, rfl⟩
    rw [hf.headerId]
    exact hLinked.headerId_le header hIn
  height_le := by
    intro _ hMem
    rcases List.mem_map.mp hMem with ⟨header, hIn, rfl⟩
    rw [hf.height]
    exact hLinked.height_le header hIn
  parent := by
    intro _ hMem headerId hPrev
    rcases List.mem_map.mp hMem with ⟨header, hIn, rfl⟩
    rw [hf.previousHeaderId] at hPrev
    rcases hLinked.parent header hIn headerId hPrev with ⟨parent, hParent, hId, hLink⟩
    refine ⟨f parent, List.mem_map_of_mem hParent, ?_, hf.parentLink hLink⟩
    rw [hf.headerId]
    exact hId
  childless := by
    intro _ hChild _ hParent hPrev
    rcases List.mem_map.mp hChild with ⟨child, hIn, rfl⟩
    rcases List.mem_map.mp hParent with ⟨parent, hParentIn, rfl⟩
    rw [hf.previousHeaderId, hf.headerId] at hPrev
    apply hTips
    exact hLinked.childless child hIn parent hParentIn hPrev

-- The Active Chain

namespace ActiveChain

variable {live nodes : List LiveBlockHeader} {tip lowest : LiveBlockHeader}

section

variable (hChain : ActiveChain live tip nodes lowest)
include hChain

theorem mem_live (hMem : header ∈ nodes ++ [lowest]) : header ∈ live :=
  ((hChain.mem_iff header).mp hMem).1

theorem tip_mem : tip ∈ live ∧ tip.isActive = true :=
  (hChain.mem_iff tip).mp hChain.path.start_mem

theorem lowest_mem : lowest ∈ live ∧ lowest.isActive = true :=
  (hChain.mem_iff lowest).mp (by simp)

theorem lowest_height_le : lowest.height ≤ tip.height := by
  have hHeight := hChain.path.measure_eq ParentLink.height
  omega

end

end ActiveChain

namespace LiveTree

variable {live nodes : List LiveBlockHeader} {tip lowest : LiveBlockHeader} {maxHeaderId : Nat}

theorem eq_tip (hTree : LiveTree live maxHeaderId tip nodes lowest)
  (hMem : header ∈ live) (hAct : header.isActive = true) (hTip : header.isChainTip = true) :
  header = tip := by
  by_contra hNe
  have hIn := (hTree.chain.mem_iff header).mpr ⟨hMem, hAct⟩
  rcases hTree.chain.path.exists_previous hIn hNe with ⟨child, hChild, hLink⟩
  have hChildLive := hTree.chain.mem_live (mem_append_left [lowest] hChild)
  have hNoTip := hTree.linked.childless child hChildLive header hMem hLink.1
  rw [hTip] at hNoTip
  cases hNoTip

theorem mem_activeTips_iff
  (hTree : LiveTree live maxHeaderId tip nodes lowest) (header : LiveBlockHeader) :
  header ∈ activeTips live ↔ header = tip := by
  rw [activeTips, mem_filter, Bool.and_eq_true]
  constructor
  · rintro ⟨hMem, hAct, hTip⟩
    exact hTree.eq_tip hMem hAct hTip
  · rintro rfl
    exact ⟨hTree.chain.tip_mem.1, hTree.chain.tip_mem.2, hTree.chain.isChainTip⟩

end LiveTree

-- Adding a Header

structure Extends (newHeader oneBack : LiveBlockHeader) (maxHeaderId : Nat) : Prop where
  headerId_eq : newHeader.headerId = maxHeaderId + 1
  link : ParentLink newHeader oneBack
  height_le : newHeader.height ≤ 0x7fffffff

/- The live headers with a new one after `oneBack`. -/
def extendedWith (live : List LiveBlockHeader) (newHeader oneBack : LiveBlockHeader) :
  List LiveBlockHeader :=
  live.map (clearTip oneBack.headerId) ++ [newHeader]

theorem toBlockHeader_extendedWith (hf : Reflags f) (live : List LiveBlockHeader)
  (newHeader oneBack : LiveBlockHeader) :
  (extendedWith (live.map f) newHeader oneBack).map (·.toBlockHeader) =
    live.map (·.toBlockHeader) ++ [newHeader.toBlockHeader] := by
  have hClear := reflags_clearTip oneBack.headerId
  rw [extendedWith, map_append, List.map_map, List.map_map]
  congr 1
  apply map_congr_left
  intro header _
  exact (hClear.comp hf).toBlockHeader header

theorem clearTip_headerId_ne {headerId : Nat} (hNe : header.headerId ≠ headerId) :
  clearTip headerId header = header :=
  if_neg hNe

theorem clearTip_of_not_tip {headerId : Nat} (hTip : header.isChainTip = false) :
  clearTip headerId header = header := by
  unfold clearTip
  split_ifs
  · rw [← hTip]
  · rfl

theorem isActive_clearTip (headerId : Nat) (header : LiveBlockHeader) :
  (clearTip headerId header).isActive =
    header.isActive := by
  unfold clearTip
  split_ifs <;> rfl

theorem isChainTip_clearTip {headerId : Nat} (hTip : header.isChainTip = false) :
  (clearTip headerId header).isChainTip = false := by
  rw [clearTip_of_not_tip hTip]
  exact hTip

theorem LinkedHeaders.extended (hLinked : LinkedHeaders live maxHeaderId)
  {newHeader oneBack : LiveBlockHeader} (hMem : oneBack ∈ live)
  (hExt : Extends newHeader oneBack maxHeaderId) :
  LinkedHeaders (extendedWith live newHeader oneBack) (maxHeaderId + 1) := by
  have hReflags := reflags_clearTip oneBack.headerId
  have hCleared : LinkedHeaders (live.map (clearTip oneBack.headerId))
        maxHeaderId :=
    hLinked.map hReflags fun _ => isChainTip_clearTip
  have hOneBack : clearTip oneBack.headerId oneBack ∈ live.map (clearTip oneBack.headerId) :=
    List.mem_map_of_mem hMem
  have hNewLink : ParentLink newHeader (clearTip oneBack.headerId oneBack) := by
    rcases hReflags oneBack with ⟨_, _, hEq⟩
    rw [hEq]
    exact hExt.link
  -- no stored header refers to the new id
  have hNoChild : ∀ child ∈ live.map (clearTip oneBack.headerId),
        child.previousHeaderId ≠ some newHeader.headerId := by
    intro child hChild hPrev
    rcases hCleared.parent child hChild _ hPrev with ⟨parent, hParent, hId, _⟩
    have hLe := hCleared.headerId_le parent hParent
    rw [hId, hExt.headerId_eq] at hLe
    omega
  have hSelf : newHeader.previousHeaderId ≠ some newHeader.headerId := by
    rw [hExt.link.1, hExt.headerId_eq]
    have hLe := hLinked.headerId_le oneBack hMem
    intro hEq
    have hId := some.inj hEq
    omega
  constructor
  · rw [extendedWith, map_append, nodup_append]
    refine ⟨hCleared.nodup_ids, by simp, ?_⟩
    intro headerId hId _ hNew hEq
    rcases List.mem_map.mp hId with ⟨header, hIn, rfl⟩
    have hLe := hCleared.headerId_le header hIn
    simp only [map_cons, map_nil, mem_singleton] at hNew
    rw [hEq, hNew, hExt.headerId_eq] at hLe
    omega
  · intro header hIn
    rcases mem_append.mp hIn with hOld | hNew
    · exact hCleared.headerId_pos header hOld
    · rw [mem_singleton.mp hNew, hExt.headerId_eq]
      omega
  · intro header hIn
    rcases mem_append.mp hIn with hOld | hNew
    · have hLe := hCleared.headerId_le header hOld
      omega
    · rw [mem_singleton.mp hNew, hExt.headerId_eq]
  · intro header hIn
    rcases mem_append.mp hIn with hOld | hNew
    · exact hCleared.height_le header hOld
    · rw [mem_singleton.mp hNew]
      exact hExt.height_le
  · intro header hIn headerId hPrev
    rcases mem_append.mp hIn with hOld | hNew
    · rcases hCleared.parent header hOld headerId hPrev with ⟨parent, hParent, hId, hLink⟩
      exact ⟨parent, mem_append_left _ hParent, hId, hLink⟩
    · rw [mem_singleton.mp hNew] at hPrev ⊢
      rw [hNewLink.1] at hPrev
      exact ⟨clearTip oneBack.headerId oneBack, mem_append_left _ hOneBack,
        some.inj hPrev, hNewLink⟩
  · intro child hChild parent hParent hPrev
    rcases mem_append.mp hParent with hOld | hNew
    · rcases mem_concat_iff.mp hChild with hOldChild | hNewChild
      · exact hCleared.childless child hOldChild parent hOld hPrev
      · rw [hNewChild, hNewLink.1] at hPrev
        have hEq := hCleared.eq_of_headerId hOneBack hOld (some.inj hPrev)
        rw [← hEq, clearTip, if_pos rfl]
    · rw [mem_singleton.mp hNew] at hPrev
      rcases mem_concat_iff.mp hChild with hOldChild | hNewChild
      · exact absurd hPrev (hNoChild child hOldChild)
      · rw [hNewChild] at hPrev
        exact absurd hPrev hSelf

-- Insertion into a Live Tree

namespace LiveTree

variable {live nodes : List LiveBlockHeader} {tip lowest newHeader oneBack : LiveBlockHeader}
variable {maxHeaderId : Nat}

section

variable (hTree : LiveTree live maxHeaderId tip nodes lowest)
include hTree

section

variable (hMem : oneBack ∈ live) (hExt : Extends newHeader oneBack maxHeaderId)

include hMem hExt

theorem insertSide (hInactive : newHeader.isActive = false)
  (hWork : newHeader.chainWork ≤ tip.chainWork) (hOneBack : oneBack ≠ tip) :
  LiveTree (extendedWith live newHeader oneBack) (maxHeaderId + 1) tip nodes lowest where
  linked := hTree.linked.extended hMem hExt
  chain := by
    have hSame :
        ∀ header ∈ live, header.isActive = true → clearTip oneBack.headerId header = header := by
      intro header hIn hAct
      by_cases hId : header.headerId = oneBack.headerId
      · have hEq := hTree.linked.eq_of_headerId hIn hMem hId
        apply clearTip_of_not_tip
        by_contra hTip
        rw [Bool.not_eq_false] at hTip
        have hIsTip := hTree.eq_tip hIn hAct hTip
        exact hOneBack (hEq.symm.trans hIsTip)
      · exact clearTip_headerId_ne hId
    constructor
    · exact hTree.chain.path
    · intro header
      rw [hTree.chain.mem_iff, extendedWith]
      constructor
      · rintro ⟨hIn, hAct⟩
        refine ⟨mem_append_left _ ?_, hAct⟩
        rw [← hSame header hIn hAct]
        exact List.mem_map_of_mem hIn
      · rintro ⟨hIn, hAct⟩
        rcases mem_concat_iff.mp hIn with hOld | hNew
        · rcases List.mem_map.mp hOld with ⟨old, hStore, rfl⟩
          rw [isActive_clearTip] at hAct
          rw [hSame old hStore hAct]
          exact ⟨hStore, hAct⟩
        · rw [hNew, hInactive] at hAct
          cases hAct
    · exact hTree.chain.isChainTip
    · intro header hIn
      rcases mem_concat_iff.mp hIn with hOld | hNew
      · rcases List.mem_map.mp hOld with ⟨old, hStore, rfl⟩
        rw [(reflags_clearTip _).chainWork]
        exact hTree.chain.chainWork_le old hStore
      · rw [hNew]
        exact hWork

theorem newTip (hAct : newHeader.isActive = true)
  (hTip : newHeader.isChainTip = true) (hWork : tip.chainWork ≤ newHeader.chainWork)
  (hReflags : Reflags f)
  (hTips : ∀ header, header.isChainTip = false → (f header).isChainTip = false)
  {nodes' : List LiveBlockHeader} (hPath : RelationPath ParentLink oneBack nodes' lowest)
  (hFlags : ∀ header ∈ live, (f header).isActive = true ↔ header ∈ nodes' ++ [lowest])
  (hLive : ∀ header ∈ nodes' ++ [lowest], header ∈ live) :
  ∃ nodes'', LiveTree (extendedWith (live.map f) newHeader oneBack)
      (maxHeaderId + 1) newHeader nodes'' (clearTip oneBack.headerId (f lowest)) := by
  have hClear := reflags_clearTip oneBack.headerId
  have hMoved : LinkedHeaders (live.map f) maxHeaderId := hTree.linked.map hReflags hTips
  have hOneBackId : (f oneBack).headerId = oneBack.headerId := hReflags.headerId oneBack
  have hExt' : Extends newHeader (f oneBack) maxHeaderId := by
    rcases hReflags oneBack with ⟨_, _, hEq⟩
    exact ⟨hExt.headerId_eq, by rw [hEq]; exact hExt.link, hExt.height_le⟩
  let g := clearTip oneBack.headerId ∘ f
  have hg : Reflags g := hClear.comp hReflags
  have hNewLink : ParentLink newHeader (g oneBack) := by
    rcases hg oneBack with ⟨_, _, hEq⟩
    rw [hEq]
    exact hExt.link
  have hPath' : RelationPath ParentLink newHeader (newHeader :: nodes'.map g) (g lowest) :=
    .step hNewLink (hPath.map g fun _ _ _ hLink => hg.parentLink hLink)
  have hNodes :
      newHeader :: nodes'.map g ++ [g lowest] = newHeader :: (nodes' ++ [lowest]).map g := by
    simp
  refine ⟨newHeader :: nodes'.map g, ?_, ?_⟩
  · have hLinked := hMoved.extended (List.mem_map_of_mem hMem) hExt'
    rw [extendedWith, hOneBackId] at hLinked
    exact hLinked
  · constructor
    · exact hPath'
    · intro header
      change header ∈ newHeader :: nodes'.map g ++ [g lowest] ↔ _
      rw [hNodes, extendedWith, List.map_map]
      constructor
      · intro hIn
        rcases mem_cons.mp hIn with rfl | hIn
        · exact ⟨by simp, hAct⟩
        · rcases List.mem_map.mp hIn with ⟨old, hOld, rfl⟩
          have hOldLive := hLive old hOld
          refine ⟨mem_append_left _ (List.mem_map_of_mem hOldLive), ?_⟩
          change (clearTip oneBack.headerId (f old)).isActive = true
          rw [isActive_clearTip]
          exact (hFlags old hOldLive).mpr hOld
      · rintro ⟨hIn, hHeaderAct⟩
        rcases mem_concat_iff.mp hIn with hOld | hNew
        · rcases List.mem_map.mp hOld with ⟨old, hStore, rfl⟩
          rw [Function.comp_apply, isActive_clearTip] at hHeaderAct
          have hOldNode := (hFlags old hStore).mp hHeaderAct
          exact mem_cons_of_mem _ (List.mem_map_of_mem hOldNode)
        · rw [hNew]
          exact mem_cons_self
    · exact hTip
    · intro header hIn
      rw [extendedWith, List.map_map] at hIn
      rcases mem_concat_iff.mp hIn with hOld | hNew
      · rcases List.mem_map.mp hOld with ⟨old, hStore, rfl⟩
        rw [hg.chainWork]
        exact Nat.le_trans (hTree.chain.chainWork_le old hStore) hWork
      · rw [hNew]

end

theorem extendTip (hExt : Extends newHeader tip maxHeaderId) (hAct : newHeader.isActive = true)
  (hTip : newHeader.isChainTip = true) (hWork : tip.chainWork ≤ newHeader.chainWork) :
  ∃ nodes', LiveTree (extendedWith live newHeader tip) (maxHeaderId + 1) newHeader nodes'
      (clearTip tip.headerId lowest) := by
  have hReflags : Reflags id := fun header => ⟨header.isActive, header.isChainTip, rfl⟩
  have hRes := hTree.newTip hTree.chain.tip_mem.1 hExt hAct hTip
    hWork hReflags (fun _ hNo => hNo) hTree.chain.path
    (fun header hIn => by
      rw [hTree.chain.mem_iff]
      exact ⟨fun h => ⟨hIn, h⟩, fun h => h.2⟩)
    (fun header hIn => hTree.chain.mem_live hIn)
  simpa only [List.map_id, id_eq] using hRes

theorem isActive_reorganized_iff
  {before after branch : List LiveBlockHeader} (hNodes : nodes = before ++ after)
  (hInactive : ∀ header ∈ branch, header ∈ live ∧ header.isActive = false) (hIn : header ∈ live) :
  (setActive (branch.map (·.headerId)) true (setActive (before.map (·.headerId)) false
        header)).isActive = true ↔
    header ∈ branch ++ after ++ [lowest] := by
  have hChain := hTree.chain.mem_iff
  rw [hNodes, append_assoc] at hChain
  have hNodup := hTree.chain.path.nodup ParentLink.height
  rw [hNodes, append_assoc, nodup_append] at hNodup
  -- ids stand for the headers of the two branches
  have hIdMem
      {headers : List LiveBlockHeader}
      (hHeaders : ∀ header ∈ headers, header ∈ live) :
      header.headerId ∈ headers.map (·.headerId) ↔ header ∈ headers := by
    constructor
    · intro hId
      rcases List.mem_map.mp hId with ⟨other, hOther, hEq⟩
      have hSame := hTree.linked.eq_of_headerId (hHeaders other hOther) hIn hEq
      rw [← hSame]
      exact hOther
    · exact List.mem_map_of_mem
  have hBranchMem := hIdMem fun h hh => (hInactive h hh).1
  have hPreMem := hIdMem fun h hh => ((hChain h).mp (mem_append_left _ hh)).1
  have hDeactivate := reflags_setActive (before.map (·.headerId)) false
  rw [append_assoc, mem_append]
  by_cases hOnBranch : header ∈ branch
  · rw [setActive, hDeactivate.headerId, if_pos (hBranchMem.mpr hOnBranch)]
    exact ⟨fun _ => .inl hOnBranch, fun _ => rfl⟩
  · rw [setActive, hDeactivate.headerId, if_neg fun hId => hOnBranch (hBranchMem.mp hId)]
    by_cases hOnPre : header ∈ before
    · rw [setActive, if_pos (hPreMem.mpr hOnPre)]
      have hNot : header ∉ after ++ [lowest] :=
        fun hAfter => hNodup.2.2 header hOnPre header hAfter rfl
      simp [hOnBranch, hNot]
    · rw [setActive, if_neg fun hId => hOnPre (hPreMem.mp hId)]
      have hRest := hChain header
      rw [mem_append] at hRest
      constructor
      · intro hNow
        rcases hRest.mpr ⟨hIn, hNow⟩ with hIn' | hIn'
        · exact absurd hIn' hOnPre
        · exact .inr hIn'
      · rintro (hIn' | hIn')
        · exact absurd hIn' hOnBranch
        · exact (hRest.mp (.inr hIn')).2

/-
  A header after an inactive branch: the chain above the
  ancestor is deactivated and the branch is activated.
-/
theorem reorganize (hMem : oneBack ∈ live)
  (hExt : Extends newHeader oneBack maxHeaderId) (hAct : newHeader.isActive = true)
  (hTip : newHeader.isChainTip = true) (hWork : tip.chainWork ≤ newHeader.chainWork)
  {ancestor : LiveBlockHeader} {before after branch : List LiveBlockHeader}
  (hNodes : nodes = before ++ after) (hAfter : RelationPath ParentLink ancestor after lowest)
  (hBranch : RelationPath ParentLink oneBack branch ancestor)
  (hInactive : ∀ header ∈ branch, header ∈ live ∧ header.isActive = false) :
  ∃ nodes', LiveTree (extendedWith ((live.map (setActive (before.map (·.headerId)) false)).map
          (setActive (branch.map (·.headerId)) true))
        newHeader oneBack)
      (maxHeaderId + 1) newHeader nodes'
      (clearTip oneBack.headerId (setActive (branch.map (·.headerId)) true
          (setActive (before.map (·.headerId)) false lowest))) := by
  have hDeactivate := reflags_setActive (before.map (·.headerId)) false
  have hActivate := reflags_setActive (branch.map (·.headerId)) true
  have hRes :=
    hTree.newTip hMem hExt hAct hTip hWork (hActivate.comp hDeactivate) (by
        intro header hNo
        rw [Function.comp_apply]
        unfold setActive
        split_ifs <;> exact hNo)
      (hBranch.trans hAfter)
      (fun header hIn => hTree.isActive_reorganized_iff hNodes hInactive hIn)
      (by
        intro header hIn
        rw [append_assoc, mem_append] at hIn
        rcases hIn with hIn | hIn
        · exact (hInactive header hIn).1
        · apply hTree.chain.mem_live
          rw [hNodes, append_assoc]
          exact mem_append_right _ hIn)
  rw [List.map_map]
  exact hRes

end

end LiveTree

-- Deleting Older Headers

variable (live : List LiveBlockHeader)

theorem clearPreviousHeaderId_eq (maxHeight : Nat) (header : LiveBlockHeader) :
  ∃ reference, clearPreviousHeaderId live maxHeight header =
      { header with previousHeaderId := reference } := by
  unfold clearPreviousHeaderId
  split
  · split_ifs
    · exact ⟨none, rfl⟩
    · exact ⟨header.previousHeaderId, rfl⟩
  · exact ⟨header.previousHeaderId, rfl⟩

@[simp] theorem headerId_clearPreviousHeaderId (maxHeight : Nat) (header : LiveBlockHeader) :
  (clearPreviousHeaderId live maxHeight header).headerId =
    header.headerId := by
  rcases clearPreviousHeaderId_eq live maxHeight header with ⟨_, hEq⟩
  rw [hEq]

@[simp] theorem toBlockHeader_clearPreviousHeaderId (maxHeight : Nat) (header : LiveBlockHeader) :
  (clearPreviousHeaderId live maxHeight header).toBlockHeader =
    header.toBlockHeader := by
  rcases clearPreviousHeaderId_eq live maxHeight header with ⟨_, hEq⟩
  rw [hEq]

@[simp] theorem height_clearPreviousHeaderId (maxHeight : Nat) (header : LiveBlockHeader) :
  (clearPreviousHeaderId live maxHeight header).height =
    header.height := by
  rcases clearPreviousHeaderId_eq live maxHeight header with ⟨_, hEq⟩
  rw [hEq]

variable {live : List LiveBlockHeader}

/- A reference that is kept leads above the height. -/
theorem clearPreviousHeaderId_some {headerId : Nat}
  (hSome : (clearPreviousHeaderId live maxHeight header).previousHeaderId = some headerId) :
  clearPreviousHeaderId live maxHeight header = header ∧
    ∀ parent, getHeader live headerId = some parent → maxHeight < parent.height := by
  unfold clearPreviousHeaderId at hSome ⊢
  cases hParent : header.previousHeaderId.bind (getHeader live) with
  | none =>
    simp only [hParent] at hSome ⊢
    rw [hSome, bind_some] at hParent
    simp [hParent]
  | some prevHeader =>
    simp only [hParent] at hSome ⊢
    split_ifs at hSome ⊢ with hOld
    rw [hSome, bind_some] at hParent
    refine ⟨rfl, fun parent hGet => ?_⟩
    rw [hParent] at hGet
    cases hGet
    exact Nat.lt_of_not_le hOld

theorem clearPreviousHeaderId_of_parent {parent : LiveBlockHeader}
  (hGet : getHeader live parent.headerId = some parent) (hLink : ParentLink header parent)
  (hAbove : maxHeight < parent.height) : clearPreviousHeaderId live maxHeight header =
    header := by
  unfold clearPreviousHeaderId
  simp only [hLink.1, bind_some, hGet]
  exact if_neg (Nat.not_le.mpr hAbove)

theorem mem_keepNewerHeaders :
  header ∈ keepNewerHeaders live maxHeight ↔ ∃ stored ∈ live, maxHeight < stored.height ∧
      clearPreviousHeaderId live maxHeight stored =
        header := by
  rw [keepNewerHeaders, mem_filter, List.mem_map]
  constructor
  · rintro ⟨⟨stored, hStore, rfl⟩, hAbove⟩
    exact ⟨stored, hStore, by simpa using hAbove, rfl⟩
  · rintro ⟨stored, hStore, hAbove, rfl⟩
    exact ⟨⟨stored, hStore, rfl⟩, by simpa using hAbove⟩

theorem LinkedHeaders.keepNewer (hLinked : LinkedHeaders live maxHeaderId) (maxHeight : Nat) :
  LinkedHeaders (keepNewerHeaders live maxHeight) maxHeaderId where
  nodup_ids := by
    have hIds : (live.map (clearPreviousHeaderId live maxHeight)).map (·.headerId) =
          live.map (·.headerId) := by
      rw [List.map_map]
      apply map_congr_left
      intro header _
      exact headerId_clearPreviousHeaderId _ _ header
    have hSub := (filter_sublist
      (p := fun header : LiveBlockHeader => maxHeight < header.height)
      (l := live.map (clearPreviousHeaderId live maxHeight))).map
      (·.headerId)
    rw [hIds] at hSub
    exact hLinked.nodup_ids.sublist hSub
  headerId_pos := by
    intro _ hMem
    rcases mem_keepNewerHeaders.mp hMem with ⟨stored, hStore, _, rfl⟩
    rw [headerId_clearPreviousHeaderId]
    exact hLinked.headerId_pos stored hStore
  headerId_le := by
    intro _ hMem
    rcases mem_keepNewerHeaders.mp hMem with ⟨stored, hStore, _, rfl⟩
    rw [headerId_clearPreviousHeaderId]
    exact hLinked.headerId_le stored hStore
  height_le := by
    intro _ hMem
    rcases mem_keepNewerHeaders.mp hMem with ⟨stored, hStore, _, rfl⟩
    rw [height_clearPreviousHeaderId]
    exact hLinked.height_le stored hStore
  parent := by
    intro _ hMem headerId hPrev
    rcases mem_keepNewerHeaders.mp hMem with ⟨stored, hStore, _, rfl⟩
    rcases clearPreviousHeaderId_some hPrev with ⟨hSame, hAbove⟩
    rw [hSame] at hPrev ⊢
    rcases hLinked.parent stored hStore headerId hPrev with ⟨parent, hParent, rfl, hLink⟩
    have hParentAbove := hAbove parent (hLinked.getHeader_eq hParent)
    rcases clearPreviousHeaderId_eq live maxHeight parent with ⟨_, hEq⟩
    refine ⟨clearPreviousHeaderId live maxHeight parent, mem_keepNewerHeaders.mpr
      ⟨parent, hParent, hParentAbove, rfl⟩, by simp, ?_⟩
    rw [hEq]
    exact hLink
  childless := by
    intro _ hChild _ hParent hPrev
    rcases mem_keepNewerHeaders.mp hChild with ⟨child, hChildIn, _, rfl⟩
    rcases mem_keepNewerHeaders.mp hParent with ⟨parent, hParentIn, _, rfl⟩
    have hSame := (clearPreviousHeaderId_some hPrev).1
    rw [hSame, headerId_clearPreviousHeaderId] at hPrev
    rcases clearPreviousHeaderId_eq live maxHeight parent with ⟨_, hEq⟩
    rw [hEq]
    exact hLinked.childless child hChildIn parent hParentIn hPrev

/- The chain above a height is the active chain left. -/
theorem LiveTree.keepNewer {nodes : List LiveBlockHeader} {tip lowest : LiveBlockHeader}
  (hTree : LiveTree live maxHeaderId tip nodes lowest)
  (hBelow : maxHeight < tip.height) : ∃ bottom nodes', bottom ∈ nodes ++ [lowest] ∧
      bottom.height = max (maxHeight + 1) lowest.height ∧
        LiveTree (keepNewerHeaders live maxHeight) maxHeaderId
          (clearPreviousHeaderId live maxHeight tip) nodes'
          (clearPreviousHeaderId live maxHeight bottom) := by
  have hLowTip := hTree.chain.lowest_height_le
  rcases hTree.chain.path.exists_measure ParentLink.height
      (Nat.le_max_right (maxHeight + 1) lowest.height) (Nat.max_le.mpr ⟨hBelow, hLowTip⟩) with
    ⟨bottom, hBottom, hHeight⟩
  rcases hTree.chain.path.split hBottom with ⟨before, after, rfl, hPre, hAfter⟩
  have hChainLive : ∀ header ∈ before ++ [bottom], header ∈ live ∧ header.isActive = true := by
    intro header hIn
    apply (hTree.chain.mem_iff header).mp
    rcases mem_append.mp hIn with hPreIn | hEq
    · simp [hPreIn]
    · rw [mem_singleton.mp hEq]
      exact hBottom
  have hAbove : ∀ header ∈ before ++ [bottom], maxHeight < header.height := by
    intro header hIn
    have hBounds := hPre.measure_bounds ParentLink.height hIn
    omega
  have hPath : RelationPath ParentLink (clearPreviousHeaderId live maxHeight tip)
        (before.map (clearPreviousHeaderId live maxHeight))
        (clearPreviousHeaderId live maxHeight bottom) := by
    apply hPre.map
    intro child hChild parent hLink
    have hChildLive := (hChainLive child (mem_append_left _ hChild)).1
    rcases hTree.linked.parent child hChildLive _ hLink.1 with ⟨stored, hStore, _, hStoreLink⟩
    have hChildAbove := hPre.measure_lt ParentLink.height hChild
    have hStoreHeight := hStoreLink.2.2
    have hSame : clearPreviousHeaderId live maxHeight child = child :=
      clearPreviousHeaderId_of_parent (hTree.linked.getHeader_eq hStore) hStoreLink (by omega)
    rw [hSame]
    rcases clearPreviousHeaderId_eq live maxHeight parent with ⟨_, hEq⟩
    rw [hEq]
    exact hLink
  refine ⟨bottom, before.map (clearPreviousHeaderId live maxHeight),
    hBottom, hHeight, hTree.linked.keepNewer maxHeight, ?_⟩
  constructor
  · exact hPath
  · intro header
    have hMap : before.map (clearPreviousHeaderId live maxHeight) ++
            [clearPreviousHeaderId live maxHeight bottom] =
          (before ++ [bottom]).map (clearPreviousHeaderId live maxHeight) := by
      simp
    rw [hMap, List.mem_map, mem_keepNewerHeaders]
    constructor
    · rintro ⟨stored, hStore, rfl⟩
      rcases hChainLive stored hStore with ⟨hIn, hAct⟩
      refine ⟨⟨stored, hIn, hAbove stored hStore, rfl⟩, ?_⟩
      rcases clearPreviousHeaderId_eq live maxHeight stored with ⟨_, hEq⟩
      rw [hEq]
      exact hAct
    · rintro ⟨⟨stored, hIn, hStoreAbove, rfl⟩, hAct⟩
      rcases clearPreviousHeaderId_eq live maxHeight stored with ⟨_, hEq⟩
      rw [hEq] at hAct
      have hChain := (hTree.chain.mem_iff stored).mpr ⟨hIn, hAct⟩
      refine ⟨stored, ?_, rfl⟩
      rw [append_assoc] at hChain
      rcases mem_append.mp hChain with hLeft | hRight
      · exact mem_append_left _ hLeft
      · have hBounds := hAfter.measure_bounds ParentLink.height hRight
        have hSame := hAfter.eq_of_measure_eq ParentLink.height hRight hAfter.start_mem (by omega)
        rw [hSame]
        simp
  · rcases clearPreviousHeaderId_eq live maxHeight tip with ⟨_, hEq⟩
    rw [hEq]
    exact hTree.chain.isChainTip
  · intro header hIn
    rcases mem_keepNewerHeaders.mp hIn with ⟨stored, hStore, _, rfl⟩
    rcases clearPreviousHeaderId_eq live maxHeight stored with ⟨_, hEq⟩
    rcases clearPreviousHeaderId_eq live maxHeight tip with ⟨_, hTipEq⟩
    rw [hEq, hTipEq]
    exact hTree.chain.chainWork_le stored hStore

end TsStack.Chaintracks
