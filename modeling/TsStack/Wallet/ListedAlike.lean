import Mathlib.Data.List.Perm.Subperm
import TsStack.Wallet.ListOutputsBoth

/-
  What a request for outputs asks for, and that both storages
  read just that.

  An output matches a request in its own terms: the basket,
  the status of the transaction, and the tags by their names.
-/

-- Requests

open List

namespace TsStack.Wallet

open Knex

structure ListingRequest where
  userId : Nat
  basketId : Option Nat
  tags : List String
  queryModeAll : Bool
  managedChangeOnly : Bool

variable (store : ListingStore)

def HasTag (userId : Nat) (output : TableOutput) (tag : String) : Prop :=
  ∃ row ∈ store.tags, (row.userId = userId ∧ row.isDeleted = false ∧ row.tag = tag) ∧
      ∃ map ∈ store.tagMaps, map.outputId = output.outputId ∧
          map.outputTagId = row.outputTagId ∧ map.isDeleted = false

instance
  (store : ListingStore) (userId : Nat) (output : TableOutput) (tag : String) :
  Decidable (HasTag store userId output tag) := by
  unfold HasTag
  infer_instance

variable (request : ListingRequest)

def TagsMatch (output : TableOutput) : Prop :=
  if request.queryModeAll then ∀ tag ∈ request.tags, HasTag store request.userId output tag
  else request.tags = [] ∨ ∃ tag ∈ request.tags, HasTag store request.userId output tag

instance
  (store : ListingStore) (request : ListingRequest) (output : TableOutput) :
  Decidable (TagsMatch store request output) := by
  unfold TagsMatch
  infer_instance

structure MatchesBase
  (store : ListingStore) (request : ListingRequest) (output : TableOutput) : Prop where
  user : output.userId = request.userId
  spendable : output.spendable = true
  basket : ∀ id ∈ request.basketId, output.basketId = some id
  status :
    ∃ tx ∈ store.transactions, tx.transactionId = output.transactionId ∧ tx.status ∈ listedStatuses
  managed :
    request.managedChangeOnly = true → isManagedChangeOutput output = true ∧ output.spentBy = none

theorem matchesBase_iff (output : TableOutput) :
  MatchesBase store request output ↔ (output.userId = request.userId ∧ output.spendable = true ∧
      (∀ id ∈ request.basketId, output.basketId = some id)) ∧
    (∃ tx ∈ store.transactions, tx.transactionId = output.transactionId ∧
        tx.status ∈ listedStatuses) ∧
    (request.managedChangeOnly = true →
      isManagedChangeOutput output = true ∧ output.spentBy = none) :=
  ⟨fun h => ⟨⟨h.user, h.spendable, h.basket⟩, h.status, h.managed⟩,
    fun h => ⟨h.1.1, h.1.2.1, h.1.2.2, h.2.1, h.2.2⟩⟩

instance
  (store : ListingStore) (request : ListingRequest) (output : TableOutput) :
  Decidable (MatchesBase store request output) :=
  decidable_of_iff _ (matchesBase_iff store request output).symm

def Matches (output : TableOutput) : Prop :=
  MatchesBase store request output ∧ TagsMatch store request output

instance
  (store : ListingStore) (request : ListingRequest) (output : TableOutput) :
  Decidable (Matches store request output) := by
  unfold Matches
  infer_instance

/-
  The content of a wallet: an output and its transaction are
  of one user, and the tags of a user have distinct names.
-/
structure WalletContent (store : ListingStore) : Prop where
  owned : ∀ output ∈ store.outputs, ∀ tx ∈ store.transactions,
      tx.transactionId = output.transactionId → tx.userId = output.userId
  tagIds : (store.tags.map (·.outputTagId)).Nodup
  tagNames : ∀ first ∈ store.tags, ∀ second ∈ store.tags, first.userId = second.userId →
        first.tag = second.tag → first = second

def matchingOutputs : List TableOutput :=
  store.outputs.filter fun output => Matches store request output

variable {store : ListingStore} {request : ListingRequest} {output : TableOutput}

theorem filter_eq_matchingOutputs {tells : TableOutput → Bool}
  (hTells : ∀ output ∈ store.outputs, tells output = true ↔ Matches store request output) :
  store.outputs.filter tells = matchingOutputs store request := by
  unfold matchingOutputs
  apply filter_congr
  intro output hOut
  rw [Bool.eq_iff_iff, decide_eq_true_eq]
  exact hTells output hOut

-- Tags

variable {store : ListingStore} {request : ListingRequest} {output : TableOutput}
variable {userId tagId : Nat} {tags : List String} {tagIds : List Nat}

theorem mem_map_tags {α : Type} {f : TableOutputTag → α} {value : α} :
  value ∈ (store.tags.filter fun row =>
      row.userId == userId && !row.isDeleted && tags.contains row.tag).map f ↔
    ∃ row ∈ store.tags, (row.userId = userId ∧ row.isDeleted = false) ∧
      row.tag ∈ tags ∧ f row = value := by
  rw [List.mem_map]
  constructor
  · rintro ⟨row, hRow, rfl⟩
    rcases mem_filter.mp hRow with ⟨hIn, hKeep⟩
    simp only [Bool.and_eq_true, beq_iff_eq, Bool.not_eq_true', contains_iff_mem] at hKeep
    exact ⟨row, hIn, hKeep.1, hKeep.2, rfl⟩
  · rintro ⟨row, hIn, ⟨hUser, hLive⟩, hTag, rfl⟩
    refine ⟨row, mem_filter.mpr ⟨hIn, ?_⟩, rfl⟩
    simp only [Bool.and_eq_true, beq_iff_eq, Bool.not_eq_true', contains_iff_mem]
    exact ⟨⟨hUser, hLive⟩, hTag⟩

theorem mem_findTagIds : tagId ∈ store.findTagIds userId tags ↔ ∃ row ∈ store.tags,
      (row.userId = userId ∧ row.isDeleted = false) ∧
        row.tag ∈ tags ∧ row.outputTagId = tagId :=
  mem_map_tags

def foundTags (store : ListingStore) (userId : Nat) (tags : List String) : List String :=
  (store.tags.filter fun row =>
    row.userId == userId && !row.isDeleted && tags.contains row.tag).map (·.tag)

theorem length_foundTags (store : ListingStore) (userId : Nat) (tags : List String) :
  (foundTags store userId tags).length = (store.findTagIds userId tags).length := by
  unfold foundTags ListingStore.findTagIds
  rw [length_map, length_map]

theorem mem_foundTags {tag : String} : tag ∈ foundTags store userId tags ↔ ∃ row ∈ store.tags,
      (row.userId = userId ∧ row.isDeleted = false) ∧ row.tag ∈ tags ∧ row.tag = tag :=
  mem_map_tags

theorem nodup_foundTags (hCont : WalletContent store) (userId : Nat) (tags : List String) :
  (foundTags store userId tags).Nodup := by
  have hRows : store.tags.Nodup := List.Nodup.of_map _ hCont.tagIds
  unfold foundTags
  apply List.Nodup.map_on _ (hRows.filter _)
  intro first hFst second hSnd hSame
  rcases mem_filter.mp hFst with ⟨hInFst, hKeepFst⟩
  rcases mem_filter.mp hSnd with ⟨hInSnd, hKeepSnd⟩
  simp only [Bool.and_eq_true, beq_iff_eq] at hKeepFst
  simp only [Bool.and_eq_true, beq_iff_eq] at hKeepSnd
  exact hCont.tagNames first hInFst second hInSnd
    (hKeepFst.1.1.trans hKeepSnd.1.1.symm) hSame

theorem nodup_findTagIds (hCont : WalletContent store) (userId : Nat) (tags : List String) :
  (store.findTagIds userId tags).Nodup :=
  hCont.tagIds.sublist (filter_sublist.map _)

theorem foundTags_subset (store : ListingStore) (userId : Nat) (tags : List String) :
  foundTags store userId tags ⊆ tags := by
  intro tag hTag
  rcases mem_foundTags.mp hTag with ⟨row, -, -, hIn, rfl⟩
  exact hIn

/- As many rows as names are one row for each name. -/
theorem subset_foundTags (hCont : WalletContent store)
  (hLen : tags.length ≤ (store.findTagIds userId tags).length) :
  tags ⊆ foundTags store userId tags := by
  rw [← length_foundTags] at hLen
  have hSub : (foundTags store userId tags).Subperm tags :=
    (nodup_foundTags hCont userId tags).subperm (foundTags_subset store userId tags)
  exact (hSub.perm_of_length_le hLen).symm.subset

def HasMap (store : ListingStore) (output : TableOutput) (tagId : Nat) : Prop :=
  ∃ map ∈ store.tagMaps, map.outputId = output.outputId ∧ map.outputTagId = tagId ∧
      map.isDeleted = false

theorem matchesTags_iff {queryModeAll : Bool} :
  matchesTags store tagIds queryModeAll output = true ↔
    if queryModeAll = true then ∀ tagId ∈ tagIds, HasMap store output tagId
    else ∃ tagId ∈ tagIds, HasMap store output tagId := by
  unfold matchesTags HasMap
  cases queryModeAll with
  | true =>
    simp only [if_true, List.all_eq_true, List.any_eq_true,
      Bool.and_eq_true, beq_iff_eq, Bool.not_eq_true', and_assoc]
  | false =>
    simp only [if_false, Bool.false_eq_true, List.any_eq_true, Bool.and_eq_true, beq_iff_eq,
      Bool.not_eq_true', contains_iff_mem]
    constructor
    · rintro ⟨map, hMap, ⟨hId, hTag⟩, hLive⟩
      exact ⟨_, hTag, map, hMap, hId, rfl, hLive⟩
    · rintro ⟨tagId, hTag, map, hMap, hId, rfl, hLive⟩
      exact ⟨map, hMap, ⟨hId, hTag⟩, hLive⟩

theorem hasTag_iff {tag : String} : HasTag store userId output tag ↔ ∃ row ∈ store.tags,
      (row.userId = userId ∧ row.isDeleted = false ∧ row.tag = tag) ∧
        HasMap store output row.outputTagId :=
  Iff.rfl

theorem knexTags_iff (hCont : WalletContent store)
  (hCan : tagQueryCannotMatch request.tags (store.findTagIds request.userId request.tags)
      request.queryModeAll = false) :
  ((store.findTagIds request.userId request.tags).isEmpty ||
      matchesTags store (store.findTagIds request.userId request.tags)
        request.queryModeAll output) = true ↔
    TagsMatch store request output := by
  unfold tagQueryCannotMatch at hCan
  unfold TagsMatch
  rw [Bool.or_eq_true, matchesTags_iff, List.isEmpty_iff]
  cases hMode : request.queryModeAll with
  | true =>
    rw [hMode, if_pos rfl, decide_eq_false_iff_not, Nat.not_lt] at hCan
    rw [if_pos rfl, if_pos rfl]
    have hAll := subset_foundTags hCont hCan
    have hEvery :
        (∀ tagId ∈ store.findTagIds request.userId request.tags, HasMap store output tagId) ↔
          ∀ tag ∈ request.tags, HasTag store request.userId output tag := by
      constructor
      · intro hMaps tag hTag
        rcases mem_foundTags.mp (hAll hTag) with ⟨row, hRow, ⟨hUser, hLive⟩, hIn, rfl⟩
        refine ⟨row, hRow, ⟨hUser, hLive, rfl⟩, ?_⟩
        exact hMaps _ (mem_findTagIds.mpr ⟨row, hRow, ⟨hUser, hLive⟩, hIn, rfl⟩)
      · intro hTags tagId hTagId
        rcases mem_findTagIds.mp hTagId with ⟨row, hRow, ⟨hUser, hLive⟩, hIn, rfl⟩
        rcases hTags row.tag hIn with ⟨other, hOther, ⟨hOtherUser, -, hName⟩, hMap⟩
        have hSame : other = row :=
          hCont.tagNames other hOther row hRow (hOtherUser.trans hUser.symm) hName
        rw [hSame] at hMap
        exact hMap
    rw [hEvery]
    constructor
    · rintro (hNone | hTags)
      · intro tag hTag
        rcases mem_foundTags.mp (hAll hTag) with ⟨row, hRow, hKeep, hIn, -⟩
        have hId := mem_findTagIds.mpr ⟨row, hRow, hKeep, hIn, rfl⟩
        rw [hNone] at hId
        cases hId
      · exact hTags
    · exact .inr
  | false =>
    rw [hMode, if_neg Bool.false_ne_true] at hCan
    rw [if_neg Bool.false_ne_true, if_neg Bool.false_ne_true]
    constructor
    · rintro (hNone | ⟨tagId, hTagId, hMap⟩)
      · left
        rw [hNone] at hCan
        by_contra hTags
        rw [length_nil, beq_self_eq_true, Bool.and_true, decide_eq_false_iff_not] at hCan
        exact hCan (length_pos_of_ne_nil hTags)
      · rcases mem_findTagIds.mp hTagId with ⟨row, hRow, ⟨hUser, hLive⟩, hIn, rfl⟩
        exact .inr ⟨row.tag, hIn, row, hRow, ⟨hUser, hLive, rfl⟩, hMap⟩
    · rintro (hNone | ⟨tag, hTag, hHas⟩)
      · left
        rw [eq_nil_iff_forall_not_mem]
        intro tagId hTagId
        rcases mem_findTagIds.mp hTagId with ⟨row, -, -, hIn, -⟩
        rw [hNone] at hIn
        cases hIn
      · rcases hasTag_iff.mp hHas with ⟨row, hRow, ⟨hUser, hLive, rfl⟩, hMap⟩
        exact .inr ⟨row.outputTagId, mem_findTagIds.mpr ⟨row, hRow, ⟨hUser, hLive⟩, hTag, rfl⟩,
          hMap⟩

-- Maps that are deleted

variable {store : ListingStore} {request : ListingRequest} {output : TableOutput}
variable {tagIds : List Nat}

def HasAnyMap (store : ListingStore) (outputId tagId : Nat) : Prop :=
  ∃ map ∈ store.tagMaps, map.outputId = outputId ∧ map.outputTagId = tagId

theorem HasMap.any (hMap : HasMap store output tagId) : HasAnyMap store output.outputId tagId := by
  rcases hMap with ⟨map, hIn, hOut, hTag, -⟩
  exact ⟨map, hIn, hOut, hTag⟩

theorem foldl_any (rows : List TableOutputTagMap) (ids : List Nat) : (rows.foldl
      (fun (ids : List Nat) row => if ids.contains row.outputTagId then [] else ids)
      ids).isEmpty = true ↔
    ids = [] ∨ ∃ row ∈ rows, row.outputTagId ∈ ids := by
  induction rows generalizing ids with
  | nil => simp only [foldl_nil, List.isEmpty_iff,
      not_mem_nil, false_and, exists_false, or_false]
  | cons row rows ih =>
    rw [foldl_cons, ih]
    by_cases hIn : row.outputTagId ∈ ids
    · rw [if_pos (contains_iff_mem.mpr hIn)]
      exact ⟨fun _ => .inr ⟨row, mem_cons_self, hIn⟩, fun _ => .inl rfl⟩
    · rw [if_neg (mt contains_iff_mem.mp hIn)]
      apply or_congr_right
      constructor
      · rintro ⟨other, hOther, hTag⟩
        exact ⟨other, mem_cons_of_mem row hOther, hTag⟩
      · rintro ⟨other, hOther, hTag⟩
        rcases mem_cons.mp hOther with rfl | hOther
        · exact absurd hTag hIn
        · exact ⟨other, hOther, hTag⟩

theorem foldl_all (rows : List TableOutputTagMap) (ids : List Nat) : rows.foldl
      (fun (ids : List Nat) row =>
        if ids.contains row.outputTagId then ids.erase row.outputTagId
        else ids)
      ids =
    ids.diff (rows.map (·.outputTagId)) := by
  induction rows generalizing ids with
  | nil => rw [foldl_nil, map_nil, diff_nil]
  | cons row rows ih =>
    rw [foldl_cons, map_cons, diff_cons, ih]
    split
    · rfl
    · rename_i hOut
      rw [erase_of_not_mem (mt contains_iff_mem.mpr hOut)]

theorem outputMatchesTags_iff (hIds : tagIds.Nodup) {outputId : Nat} {queryModeAll : Bool} :
  Idb.outputMatchesTags store outputId tagIds queryModeAll = true ↔
    if queryModeAll = true then ∀ tagId ∈ tagIds, HasAnyMap store outputId tagId
    else tagIds = [] ∨ ∃ tagId ∈ tagIds, HasAnyMap store outputId tagId := by
  unfold Idb.outputMatchesTags
  cases queryModeAll with
  | true =>
    simp only [if_true]
    rw [foldl_all, List.isEmpty_iff, eq_nil_iff_forall_not_mem]
    have hNamed : ∀ tagId, tagId ∈ (store.tagMaps.filter
            (·.outputId == outputId)).map (·.outputTagId) ↔
          HasAnyMap store outputId tagId := by
      intro tagId
      rw [List.mem_map]
      constructor
      · rintro ⟨map, hMap, hTag⟩
        rcases mem_filter.mp hMap with ⟨hIn, hOut⟩
        exact ⟨map, hIn, beq_iff_eq.mp hOut, hTag⟩
      · rintro ⟨map, hIn, hOut, hTag⟩
        exact ⟨map, mem_filter.mpr ⟨hIn, beq_iff_eq.mpr hOut⟩, hTag⟩
    constructor
    · intro hNone tagId hTagId
      by_contra hMissing
      apply hNone tagId
      rw [hIds.mem_sdiff_iff, hNamed]
      exact ⟨hTagId, hMissing⟩
    · intro hAll tagId hLeft
      rw [hIds.mem_sdiff_iff, hNamed] at hLeft
      exact hLeft.2 (hAll tagId hLeft.1)
  | false =>
    simp only [if_false, Bool.false_eq_true]
    rw [foldl_any]
    apply or_congr_right
    constructor
    · rintro ⟨map, hMap, hTag⟩
      rcases mem_filter.mp hMap with ⟨hIn, hOut⟩
      exact ⟨_, hTag, map, hIn, beq_iff_eq.mp hOut, rfl⟩
    · rintro ⟨tagId, hTag, map, hIn, hOut, rfl⟩
      exact ⟨map, mem_filter.mpr ⟨hIn, beq_iff_eq.mpr hOut⟩, hTag⟩

def cursorTags (store : ListingStore) (request : ListingRequest) (output : TableOutput) : Bool :=
  (store.findTagIds request.userId request.tags).isEmpty ||
    Idb.outputMatchesTags store output.outputId (store.findTagIds request.userId request.tags)
      request.queryModeAll

def LiveTags (store : ListingStore) (request : ListingRequest) : Prop :=
  ∀ output ∈ store.outputs, MatchesBase store request output →
      cursorTags store request output = true → TagsMatch store request output

instance
  (store : ListingStore) (request : ListingRequest) : Decidable (LiveTags store request) := by
  unfold LiveTags
  infer_instance

/- Live maps are maps. -/
theorem cursorTags_of_tagsMatch (hCont : WalletContent store)
  (hCan : tagQueryCannotMatch request.tags (store.findTagIds request.userId request.tags)
      request.queryModeAll = false)
  (hTags : TagsMatch store request output) : cursorTags store request output = true := by
  have hKnex := (knexTags_iff hCont hCan).mpr hTags
  unfold cursorTags
  rw [Bool.or_eq_true] at hKnex ⊢
  refine hKnex.imp_right ?_
  rw [matchesTags_iff, outputMatchesTags_iff
    (nodup_findTagIds hCont request.userId request.tags)]
  split
  · intro hMaps tagId hTagId
    exact (hMaps tagId hTagId).any
  · rintro ⟨tagId, hTagId, hMap⟩
    exact .inr ⟨tagId, hTagId, hMap.any⟩

-- Rows that are read

variable {store : ListingStore} {request : ListingRequest} {output : TableOutput}

theorem matchesBase_knex_iff : matchesBase store request.userId request.basketId false
      request.managedChangeOnly output = true ↔
    MatchesBase store request output := by
  rw [matchesBase_iff]
  unfold matchesBase joinsStatus isManagedChangeOutput
  cases request.basketId <;>
    cases request.managedChangeOnly <;>
      simp [and_assoc, and_left_comm, and_comm]

theorem baseQuery_eq_matching (hCont : WalletContent store)
  (hCan : tagQueryCannotMatch request.tags (store.findTagIds request.userId request.tags)
      request.queryModeAll = false) :
  baseQuery store request.userId request.basketId false request.managedChangeOnly
      (store.findTagIds request.userId request.tags) request.queryModeAll =
    matchingOutputs store request := by
  unfold baseQuery
  apply filter_eq_matchingOutputs
  intro output _
  rw [Bool.and_eq_true, matchesBase_knex_iff, knexTags_iff hCont hCan]
  rfl

theorem mem_eligible_iff {transactionId : Nat} {txStatus : List TransactionStatus} :
  transactionId ∈ Idb.eligibleOutputTransactionIds store userId txStatus ↔
    ∃ tx ∈ store.transactions, tx.transactionId = transactionId ∧
        tx.userId = userId ∧ tx.status ∈ txStatus := by
  unfold Idb.eligibleOutputTransactionIds
  simp only [mem_flatMap, List.mem_map, mem_filter, Bool.and_eq_true, beq_iff_eq]
  constructor
  · rintro ⟨status, hStat, tx, ⟨hTx, rfl, hUser⟩, hId⟩
    exact ⟨tx, hTx, hId, hUser, hStat⟩
  · rintro ⟨tx, hTx, hId, hUser, hStat⟩
    exact ⟨tx.status, hStat, tx, ⟨hTx, rfl, hUser⟩, hId⟩

theorem eligible_iff_joinsStatus (hCont : WalletContent store) (hOut : output ∈ store.outputs)
  (txStatus : List TransactionStatus) :
  (Idb.eligibleOutputTransactionIds store output.userId txStatus).contains output.transactionId =
    joinsStatus store txStatus output := by
  rw [Bool.eq_iff_iff, contains_iff_mem, mem_eligible_iff]
  unfold joinsStatus
  rw [List.any_eq_true]
  simp only [Bool.and_eq_true, beq_iff_eq, contains_iff_mem]
  constructor
  · rintro ⟨tx, hTx, hId, -, hStat⟩
    exact ⟨tx, hTx, hId, hStat⟩
  · rintro ⟨tx, hTx, hId, hStat⟩
    exact ⟨tx, hTx, hId, hCont.owned output hOut tx hTx hId, hStat⟩

end TsStack.Wallet
