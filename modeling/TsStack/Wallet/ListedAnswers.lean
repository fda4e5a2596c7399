import Mathlib.Algebra.BigOperators.Group.List.Basic
import TsStack.Wallet.ListedAlike

/-
  The answers of both storages to one request.

  An operation shows a page, sums a balance, or reviews all
  that matches.  For each of them, what both storages load
  is what matches the request, and the total is the number
  of it.
-/

-- Kinds of operations

open List

namespace TsStack.Wallet

open Knex

structure IsPaged (specOp : ListOutputsSpecOp) : Prop where
  ignoreLimit : specOp.ignoreLimit = false
  maximum : specOp.maximumCandidateCount = none
  scripts : specOp.includeOutputScripts = false
  spent : specOp.includeSpent = false
  sum : specOp.totalOutputsIsSumOfSatoshis = false
  balance : specOp.resultFromOutputs = false
  review : specOp.filterOutputs = false

structure IsBalance (specOp : ListOutputsSpecOp) : Prop where
  ignoreLimit : specOp.ignoreLimit = true
  maximum : specOp.maximumCandidateCount = none
  scripts : specOp.includeOutputScripts = false
  spent : specOp.includeSpent = false
  sum : specOp.totalOutputsIsSumOfSatoshis = true
  balance : specOp.resultFromOutputs = true
  review : specOp.filterOutputs = false

structure IsReview (specOp : ListOutputsSpecOp) : Prop where
  ignoreLimit : specOp.ignoreLimit = true
  maximum : specOp.maximumCandidateCount = some MAX_UTXO_REVIEW_CANDIDATES
  scripts : specOp.includeOutputScripts = true
  spent : specOp.includeSpent = false
  managed : specOp.managedChangeOnly = false
  sum : specOp.totalOutputsIsSumOfSatoshis = false
  balance : specOp.resultFromOutputs = false
  review : specOp.filterOutputs = true

/- An operation that is no operation on tags. -/
def KindOfRows (specOp : ListOutputsSpecOp) : Prop :=
  IsPaged specOp ∨ IsBalance specOp ∨ IsReview specOp

theorem kind_noSpecOp : KindOfRows noSpecOp :=
  Or.inl ⟨rfl, rfl, rfl, rfl, rfl, rfl, rfl⟩

theorem kind_inherited
  {key : String} {specOp : ListOutputsSpecOp} (hOp : inheritedSpecOp key = some specOp) :
  IsPaged specOp := by
  unfold inheritedSpecOp at hOp
  split at hOp
  · cases hOp
    exact ⟨rfl, rfl, rfl, rfl, rfl, rfl, rfl⟩
  · split at hOp
    · cases hOp
      exact ⟨rfl, rfl, rfl, rfl, rfl, rfl, rfl⟩
    · cases hOp

theorem kind_basketSpecOp
  {basket : String} {specOp : ListOutputsSpecOp} (hOp : basketSpecOp basket = some specOp)
  (hRows : specOp.resultFromTags = none) : KindOfRows specOp := by
  unfold basketSpecOp at hOp
  split at hOp
  · cases hOp
    exact .inr (Or.inl ⟨rfl, rfl, rfl, rfl, rfl, rfl, rfl⟩)
  · split at hOp
    · cases hOp
      exact .inl ⟨rfl, rfl, rfl, rfl, rfl, rfl, rfl⟩
    · split at hOp
      · cases hOp
        exact .inr (Or.inr ⟨rfl, rfl, rfl, rfl, rfl, rfl, rfl, rfl⟩)
      · split at hOp
        · cases hOp
          cases hRows
        · split at hOp
          · cases hOp
            cases hRows
          · exact .inl (kind_inherited hOp)

theorem kind_tagSpecOp
  {tag : String} {specOp : ListOutputsSpecOp} (hOp : tagSpecOp tag = some specOp)
  (managed : Bool) : KindOfRows { specOp with managedChangeOnly := managed } := by
  unfold tagSpecOp at hOp
  split at hOp
  · cases hOp
    exact .inr (Or.inl ⟨rfl, rfl, rfl, rfl, rfl, rfl, rfl⟩)
  · rcases kind_inherited hOp with ⟨hIgnore, hMax, hScripts, hSpent, hSum, hBal, hReview⟩
    exact .inl ⟨hIgnore, hMax, hScripts, hSpent, hSum, hBal, hReview⟩

theorem specOp_kinds (basket : String) (tags : List String)
  (hRows : (getListOutputsSpecOp basket tags).specOp.resultFromTags = none) :
  KindOfRows (getListOutputsSpecOp basket tags).specOp := by
  unfold getListOutputsSpecOp at hRows ⊢
  cases hBasket : basketSpecOp basket with
  | some specOp =>
    have hRes : resolveBasketSpecOp basket tags = some ⟨specOp, specOp.useBasket, tags⟩ := by
      unfold resolveBasketSpecOp
      rw [hBasket]
      rfl
    rw [hRes] at hRows ⊢
    exact kind_basketSpecOp hBasket hRows
  | none =>
    have hRes : resolveBasketSpecOp basket tags = none := by
      unfold resolveBasketSpecOp
      rw [hBasket]
      rfl
    rw [hRes]
    change KindOfRows ((resolveTagSpecOp basket tags).getD ⟨noSpecOp, some basket, tags⟩).specOp
    unfold resolveTagSpecOp
    split
    · exact kind_noSpecOp
    · rename_i tag hFind
      cases hTag : tagSpecOp tag with
      | none => exact kind_noSpecOp
      | some specOp => exact kind_tagSpecOp hTag _

-- Pages

def listedPage (vargs : ValidListOutputsArgs) (rows : List TableOutput) : List TableOutput :=
  ((orderRows (normalizeListOffset vargs.offset).2 rows).drop
      (normalizeListOffset vargs.offset).1).take vargs.limit

theorem length_orderRows (descending : Bool) (rows : List TableOutput) :
  (orderRows descending rows).length = rows.length := by
  unfold orderRows
  split
  · exact length_reverse
  · rfl

theorem filter_orderRows (descending : Bool) (rows : List TableOutput) (keep : TableOutput → Bool) :
  (orderRows descending rows).filter keep = orderRows descending (rows.filter keep) := by
  unfold orderRows
  split
  · exact filter_reverse
  · rfl

theorem map_orderRows
  {α : Type} (descending : Bool) (rows : List TableOutput) (read : TableOutput → α) :
  ((orderRows descending rows).map read).Perm (rows.map read) := by
  unfold orderRows
  split
  · rw [map_reverse]
    exact reverse_perm _
  · exact List.Perm.refl _

theorem mem_orderRows {descending : Bool} {rows : List TableOutput} {output : TableOutput} :
  output ∈ orderRows descending rows ↔ output ∈ rows := by
  unfold orderRows
  split
  · exact mem_reverse
  · exact Iff.rfl

theorem resolveKnexListTotal_eq
  {α : Type} (rows : List α) {limit : Nat} (hLimit : 0 < limit) (offset : Nat) :
  resolveKnexListTotal ((rows.drop offset).take limit).length limit offset rows.length =
    rows.length := by
  unfold resolveKnexListTotal inferShortPageTotal
  rw [length_take, length_drop]
  split
  · rfl
  · rename_i hShort
    have hFits : rows.length - offset < limit := by
      by_contra hLong
      exact hShort ⟨hLimit, by omega⟩
    split
    · rfl
    · rename_i hPage
      change offset + min limit (rows.length - offset) = rows.length
      have hStarts : offset = 0 ∨ offset < rows.length := by
        by_contra hPast
        exact hPage ⟨by omega, by omega⟩
      omega

-- Rows of the cursor

def dropScript (output : TableOutput) : TableOutput :=
  { output with lockingScript := none }

variable {store : ListingStore} {request : ListingRequest} {basketId : Nat}
variable {specOp : ListOutputsSpecOp} {vargs : ValidListOutputsArgs}

def cursorKeeps (store : ListingStore) (request : ListingRequest) (basketId : Nat)
  (output : TableOutput) : Bool :=
  Idb.matchesPartial request.userId basketId request.managedChangeOnly output &&
    (Idb.eligibleOutputTransactionIds store request.userId
      listedStatuses).contains output.transactionId &&
    cursorTags store request output

def keptRows (store : ListingStore) (request : ListingRequest) (basketId : Nat)
  (descending : Bool) : List TableOutput :=
  orderRows descending (store.outputs.filter (cursorKeeps store request basketId))

theorem filterOutputs_eq
  (store : ListingStore) (request : ListingRequest) (basketId : Nat) (descending : Bool)
  (offset limit : Nat) : Idb.filterOutputs store request.userId
      (Idb.matchesPartial request.userId basketId request.managedChangeOnly) listedStatuses
      (store.findTagIds request.userId request.tags)
      request.queryModeAll descending offset limit =
    if limit = 0 then (keptRows store request basketId descending).drop offset
    else ((keptRows store request basketId descending).drop offset).take limit := by
  unfold keptRows
  rw [← filter_orderRows]
  rfl

def cursorMatching (store : ListingStore) (request : ListingRequest) : List TableOutput :=
  store.outputs.filter fun output =>
    MatchesBase store request output ∧ cursorTags store request output = true

section

variable (hCont : WalletContent store)
include hCont

theorem cursorKeeps_iff (hBasket : request.basketId = some basketId)
  {output : TableOutput} (hOut : output ∈ store.outputs) :
  (cursorKeeps store request basketId output && (!request.managedChangeOnly ||
        (isManagedChangeOutput output && output.spentBy.isNone))) = true ↔
    MatchesBase store request output ∧ cursorTags store request output = true := by
  have hEligible : output.userId = request.userId →
      ((Idb.eligibleOutputTransactionIds store request.userId
          listedStatuses).contains output.transactionId =
        joinsStatus store listedStatuses output) := by
    intro hUser
    rw [← hUser]
    exact eligible_iff_joinsStatus hCont hOut _
  rw [← matchesBase_knex_iff]
  unfold cursorKeeps
  by_cases hUser : output.userId = request.userId
  · rw [hEligible hUser]
    unfold Idb.matchesPartial matchesBase isManagedChangeOutput
    rw [hBasket]
    cases request.managedChangeOnly <;>
      simp [and_assoc, and_left_comm, and_comm]
  · unfold Idb.matchesPartial matchesBase
    simp [hUser]

theorem cursorRows_eq (hBasket : request.basketId = some basketId) :
  (store.outputs.filter (cursorKeeps store request basketId)).filter
      (fun output => !request.managedChangeOnly ||
        (isManagedChangeOutput output && output.spentBy.isNone)) =
    cursorMatching store request := by
  unfold cursorMatching
  rw [List.filter_filter]
  apply filter_congr
  intro output hOut
  rw [Bool.and_comm, Bool.eq_iff_iff, decide_eq_true_eq]
  exact cursorKeeps_iff hCont hBasket hOut

section

variable
    (hCan : tagQueryCannotMatch request.tags (store.findTagIds request.userId request.tags) request.queryModeAll = false)

include hCan

theorem cursorMatching_of_matches :
  (cursorMatching store request).filter (fun output => Matches store request output) =
    matchingOutputs store request := by
  unfold cursorMatching matchingOutputs
  rw [List.filter_filter]
  apply filter_congr
  intro output _
  rw [Bool.eq_iff_iff, Bool.and_eq_true, decide_eq_true_eq, decide_eq_true_eq]
  constructor
  · exact fun hBoth => hBoth.1
  · intro hMatches
    exact ⟨hMatches, hMatches.1, cursorTags_of_tagsMatch hCont hCan hMatches.2⟩

theorem cursorMatching_eq (hLive : LiveTags store request) :
  cursorMatching store request = matchingOutputs store request := by
  rw [← cursorMatching_of_matches hCont hCan]
  refine (filter_eq_self.mpr ?_).symm
  intro output hOut
  rcases mem_filter.mp hOut with ⟨hIn, hAsked⟩
  rw [decide_eq_true_eq] at hAsked ⊢
  exact ⟨hAsked.1, hLive output hIn hAsked.1 hAsked.2⟩

theorem liveTags_of_length
  (hLen : (cursorMatching store request).length = (matchingOutputs store request).length) :
  LiveTags store request := by
  rw [← cursorMatching_of_matches hCont hCan] at hLen
  have hAll := length_filter_eq_length_iff.mp hLen.symm
  intro output hOut hBase hTags
  have hAsked : output ∈ cursorMatching store request := by
    unfold cursorMatching
    rw [mem_filter, decide_eq_true_eq]
    exact ⟨hOut, hBase, hTags⟩
  have hMatches := hAll output hAsked
  rw [decide_eq_true_eq] at hMatches
  exact hMatches.2

end

end

def strayOutputs (store : ListingStore) (request : ListingRequest) : List TableOutput :=
  (cursorMatching store request).filter fun output => ¬ Matches store request output

def sumOfSatoshis (rows : List TableOutput) : Int :=
  (rows.map (·.satoshis)).sum

theorem sumOfSatoshis_cursorMatching (hCont : WalletContent store)
  (hCan : tagQueryCannotMatch request.tags (store.findTagIds request.userId request.tags)
      request.queryModeAll = false) :
  sumOfSatoshis (cursorMatching store request) = sumOfSatoshis (matchingOutputs store request) +
      sumOfSatoshis (strayOutputs store request) := by
  have hParts := filter_append_perm (fun output => decide (Matches store request output))
    (cursorMatching store request)
  rw [cursorMatching_of_matches hCont hCan] at hParts
  have hStray :
      ((cursorMatching store request).filter fun output => !decide (Matches store request output)) =
        strayOutputs store request := by
    unfold strayOutputs
    simp only [decide_not]
  rw [hStray] at hParts
  unfold sumOfSatoshis
  rw [← (hParts.map (·.satoshis)).sum_eq, map_append, sum_append]

-- Pages and balances

variable {β : Type} {services : ListingServices β} {store : ListingStore} {userId : Nat}
variable {vargs : ValidListOutputsArgs} {specOp : ListOutputsSpecOp} {resolved : ResolvedListTags}

def requestOf (userId : Nat) (vargs : ValidListOutputsArgs) (specOp : ListOutputsSpecOp)
  (resolved : ResolvedListTags) : ListingRequest where
  userId := userId
  basketId := resolved.basketId
  tags := resolved.tags
  queryModeAll := vargs.tagQueryModeAll
  managedChangeOnly := specOp.managedChangeOnly

def CanMatch (store : ListingStore) (request : ListingRequest) : Prop :=
  tagQueryCannotMatch request.tags (store.findTagIds request.userId request.tags)
    request.queryModeAll = false

theorem knex_paged (hCont : WalletContent store) (hPaged : IsPaged specOp)
  (hCan : CanMatch store (requestOf userId vargs specOp resolved)) :
  listResolved services store userId vargs specOp
      resolved (store.findTagIds userId resolved.tags) =
    listingResult services vargs (matchingOutputs store
        (requestOf userId vargs specOp resolved)).length
      (listedPage vargs (matchingOutputs store (requestOf userId vargs specOp resolved)))
      ((listedPage vargs (matchingOutputs store (requestOf userId vargs specOp resolved))).map
          (hydrateKnexWalletOutput store vargs)) := by
  have hRows :
      baseQuery store userId resolved.basketId specOp.includeSpent specOp.managedChangeOnly
          (store.findTagIds userId resolved.tags) vargs.tagQueryModeAll =
        matchingOutputs store (requestOf userId vargs specOp resolved) := by
    rw [hPaged.spent]
    exact baseQuery_eq_matching hCont hCan
  unfold listResolved
  simp only [hRows, hPaged.sum, hPaged.balance, Bool.false_eq_true, if_false, selectRows,
    hPaged.ignoreLimit, checkCandidateCount,
    hPaged.maximum, filterRows, hPaged.review, bind, Except.bind]
  have hTotal := resolveKnexListTotal_eq (orderRows (normalizeListOffset vargs.offset).2
      (matchingOutputs store (requestOf userId vargs specOp resolved)))
    vargs.limitPositive (normalizeListOffset vargs.offset).1
  rw [length_orderRows] at hTotal
  rw [hTotal]
  rfl

theorem knex_balance (hCont : WalletContent store) (hBal : IsBalance specOp)
  (hCan : CanMatch store (requestOf userId vargs specOp resolved)) :
  listResolved services store userId vargs specOp
      resolved (store.findTagIds userId resolved.tags) =
    .ok (balanceResult (matchingOutputs store (requestOf userId vargs specOp resolved))) := by
  have hRows :
      baseQuery store userId resolved.basketId specOp.includeSpent specOp.managedChangeOnly
          (store.findTagIds userId resolved.tags) vargs.tagQueryModeAll =
        matchingOutputs store (requestOf userId vargs specOp resolved) := by
    rw [hBal.spent]
    exact baseQuery_eq_matching hCont hCan
  unfold listResolved
  simp only [hRows, hBal.sum, if_true]
  rfl

def managedRows (managed : Bool) (rows : List TableOutput) : List TableOutput :=
  rows.filter fun output => !managed || (isManagedChangeOutput output && output.spentBy.isNone)

theorem managedRows_map_dropScript (managed : Bool) (rows : List TableOutput) :
  managedRows managed (rows.map dropScript) = (managedRows managed rows).map dropScript := by
  unfold managedRows
  rw [List.filter_map]
  rfl

theorem managedRows_eq (managed : Bool) (rows : List TableOutput) : (if managed = true then
      rows.filter fun output => isManagedChangeOutput output && output.spentBy.isNone
    else rows) =
    managedRows managed rows := by
  unfold managedRows
  cases managed with
  | true => rfl
  | false =>
    simp only [Bool.false_eq_true, if_false, Bool.not_false, Bool.true_or, filter_true]

def loadedRows (store : ListingStore) (request : ListingRequest) (basketId : Nat)
  (descending : Bool) : List TableOutput :=
  managedRows request.managedChangeOnly (keptRows store request basketId descending)

theorem loadedRows_eq (hCont : WalletContent store) {request : ListingRequest} {basketId : Nat}
  (hBasket : request.basketId = some basketId) (descending : Bool) :
  loadedRows store request basketId descending =
    orderRows descending (cursorMatching store request) := by
  unfold loadedRows managedRows keptRows
  rw [filter_orderRows, cursorRows_eq hCont hBasket]

theorem loadIdbOutputs_eq
  (hBasket : resolved.basketId = some basketId) (limit offset : Nat) (descending : Bool) :
  Idb.loadIdbOutputs store userId resolved.basketId (store.findTagIds userId resolved.tags)
      vargs.tagQueryModeAll specOp limit offset descending =
    (do
      let kept := keptRows store (requestOf userId vargs specOp resolved) basketId descending
      let paged := Idb.pagedArgs specOp limit offset
      let found :=
        Idb.scriptRows store (!specOp.includeOutputScripts) (if paged.2 = 0 then kept.drop paged.1
            else (kept.drop paged.1).take paged.2)
      checkCandidateCount specOp found
      let outputs := managedRows specOp.managedChangeOnly found
      if specOp.managedChangeOnly && !specOp.ignoreLimit then
        return ((outputs.drop offset).take limit, outputs.length)
      else
        let skipped := if specOp.ignoreLimit then 0 else offset
        if outputs.length ≠ limit ∧ (0 < outputs.length ∨ skipped = 0) then
          return (outputs, skipped + outputs.length)
        else return (outputs, kept.length)) := by
  have hRead : ∀ skip take, Idb.filterOutputs store userId
          (Idb.matchesPartial userId basketId specOp.managedChangeOnly) listedStatuses
          (store.findTagIds userId resolved.tags) vargs.tagQueryModeAll descending skip take =
        if take = 0 then
          (keptRows store (requestOf userId vargs specOp resolved) basketId descending).drop skip
        else
          ((keptRows store (requestOf userId vargs specOp resolved) basketId
            descending).drop skip).take take :=
    filterOutputs_eq store (requestOf userId vargs specOp resolved) basketId descending
  rw [hBasket]
  unfold Idb.loadIdbOutputs
  simp only [hRead, if_true, drop_zero, managedRows_eq]

theorem loadIdbOutputs_paged
  (hPaged : IsPaged specOp) {basketId : Nat} (hBasket : resolved.basketId = some basketId)
  {limit : Nat} (hLimit : 0 < limit) (offset : Nat) (descending : Bool) :
  Idb.loadIdbOutputs store userId resolved.basketId (store.findTagIds userId resolved.tags)
      vargs.tagQueryModeAll specOp limit offset descending =
    .ok ((((loadedRows store (requestOf userId vargs specOp resolved)
            basketId descending).drop offset).take limit).map dropScript,
        (loadedRows store (requestOf userId vargs specOp resolved)
          basketId descending).length) := by
  have hNoLimit : limit ≠ 0 := Nat.pos_iff_ne_zero.mp hLimit
  have hScripts : ∀ rows : List TableOutput, Idb.scriptRows store true rows = rows.map dropScript :=
    fun _ => rfl
  have hOp : (requestOf userId vargs specOp resolved).managedChangeOnly =
    specOp.managedChangeOnly := rfl
  rw [loadIdbOutputs_eq hBasket]
  unfold loadedRows
  rw [hOp]
  generalize keptRows store (requestOf userId vargs specOp resolved) basketId descending = kept
  simp only [hPaged.ignoreLimit, hPaged.scripts,
    hPaged.maximum, Idb.pagedArgs, checkCandidateCount,
    Bool.not_false, Bool.true_and, Bool.and_true, hScripts, Bool.false_eq_true, if_false]
  cases specOp.managedChangeOnly with
  | true =>
    simp only [Bool.not_true, Bool.false_eq_true, if_false,
      if_true, drop_zero, managedRows_map_dropScript,
      ← map_take, ← map_drop, length_map]
    rfl
  | false =>
    have hAll : ∀ rows : List TableOutput, managedRows false rows = rows :=
      fun rows => filter_true rows
    simp only [Bool.not_false, Bool.false_eq_true, if_true,
      if_false, if_neg hNoLimit, hAll, length_map,
      length_take, length_drop]
    change (if _ then Except.ok _ else Except.ok _) = _
    split
    · rename_i hShort
      have hTotal : offset + min limit (kept.length - offset) =
            kept.length := by
        omega
      rw [hTotal]
    · rfl

theorem loadIdbOutputs_balance
  (hBal : IsBalance specOp) {basketId : Nat} (hBasket : resolved.basketId = some basketId)
  (limit offset : Nat) (descending : Bool) :
  ∃ total, Idb.loadIdbOutputs store userId resolved.basketId
        (store.findTagIds userId resolved.tags) vargs.tagQueryModeAll specOp limit offset
        descending =
      .ok ((loadedRows store (requestOf userId vargs specOp resolved)
            basketId descending).map dropScript,
          total) := by
  have hScripts : ∀ rows : List TableOutput, Idb.scriptRows store true rows = rows.map dropScript :=
    fun _ => rfl
  have hOp : (requestOf userId vargs specOp resolved).managedChangeOnly =
    specOp.managedChangeOnly := rfl
  rw [loadIdbOutputs_eq hBasket]
  unfold loadedRows
  rw [hOp]
  generalize keptRows store (requestOf userId vargs specOp resolved) basketId descending = kept
  simp only [hBal.ignoreLimit, hBal.scripts,
    hBal.maximum, Idb.pagedArgs, checkCandidateCount,
    Bool.not_false, Bool.not_true, Bool.false_and,
    Bool.and_false, Bool.false_eq_true, if_false, if_true,
    drop_zero, hScripts, managedRows_map_dropScript, bind, Except.bind]
  split
  · exact ⟨_, rfl⟩
  · exact ⟨_, rfl⟩

theorem loadIdbOutputs_review
  (hReview : IsReview specOp) (hBasket : resolved.basketId = some basketId) (limit offset : Nat)
  (descending : Bool) : ∃ total, Idb.loadIdbOutputs store userId resolved.basketId
        (store.findTagIds userId resolved.tags) vargs.tagQueryModeAll specOp limit offset
        descending =
      if MAX_UTXO_REVIEW_CANDIDATES < (loadedRows store (requestOf userId vargs specOp resolved)
            basketId descending).length then
        .error (.tooManyCandidates specOp.name MAX_UTXO_REVIEW_CANDIDATES)
      else
        .ok ((loadedRows store (requestOf userId vargs specOp resolved)
              basketId descending).map store.validateOutputScript,
            total) := by
  have hScripts : ∀ rows : List TableOutput, Idb.scriptRows store false rows =
        rows.map store.validateOutputScript :=
    fun _ => rfl
  have hAll : ∀ rows : List TableOutput, managedRows false rows = rows :=
    fun rows => filter_true rows
  have hOp : (requestOf userId vargs specOp resolved).managedChangeOnly = false := hReview.managed
  rw [loadIdbOutputs_eq hBasket]
  unfold loadedRows
  rw [hOp]
  generalize keptRows store (requestOf userId vargs specOp resolved) basketId descending = kept
  simp only [hReview.ignoreLimit, hReview.scripts, hReview.maximum, hReview.managed, Idb.pagedArgs,
    checkCandidateCount, Bool.not_true, Bool.false_and,
    Bool.and_false, Bool.false_eq_true, if_false, if_true,
    drop_zero, hScripts, hAll, length_map, length_take, Nat.add_one_ne_zero]
  by_cases hMany : MAX_UTXO_REVIEW_CANDIDATES < kept.length
  · have hTaken : MAX_UTXO_REVIEW_CANDIDATES < min (MAX_UTXO_REVIEW_CANDIDATES + 1)
            kept.length := by
      omega
    simp only [if_pos hMany, if_pos hTaken]
    exact ⟨0, rfl⟩
  · have hTaken : ¬ MAX_UTXO_REVIEW_CANDIDATES < min (MAX_UTXO_REVIEW_CANDIDATES + 1)
            kept.length := by
      omega
    have hWhole : kept.take (MAX_UTXO_REVIEW_CANDIDATES + 1) = kept :=
      take_of_length_le (by omega)
    simp only [if_neg hMany, if_neg hTaken, hWhole, bind, Except.bind]
    split
    · exact ⟨_, rfl⟩
    · exact ⟨_, rfl⟩

end TsStack.Wallet
