import TsStack.Wallet.ListedReviews

/-
  Both storages list the same outputs.

  The listings of both storages are the same, their totals
  are the number or the sum of what is requested, and their
  pages are all of it, in order.
-/

-- Agreement

open List

namespace TsStack.Wallet

open Idb

variable {β : Type}

def specOpOf (vargs : ValidListOutputsArgs) : ListOutputsSpecOp :=
  (getListOutputsSpecOp vargs.basket vargs.tags).specOp

def resolvedTagsOf (vargs : ValidListOutputsArgs) (basketId : Option Nat) : ResolvedListTags :=
  resolveListTags (specOpOf vargs) (getListOutputsSpecOp vargs.basket vargs.tags).tags basketId

def requestWith
  (userId : Nat) (vargs : ValidListOutputsArgs) (basketId : Option Nat) : ListingRequest :=
  requestOf userId vargs (specOpOf vargs) (resolvedTagsOf vargs basketId)

def basketOf
  (store : ListingStore) (userId : Nat) (vargs : ValidListOutputsArgs) : Option (Option Nat) :=
  store.resolveBasketId userId (getListOutputsSpecOp vargs.basket vargs.tags).basket

def requestedOutputs
  (store : ListingStore) (userId : Nat) (vargs : ValidListOutputsArgs) : List TableOutput :=
  (basketOf store userId vargs).elim [] fun basketId =>
    matchingOutputs store (requestWith userId vargs basketId)

/-
  The total is the sum of a balance, the number of rows that a review finds spent, and else the
  number of the outputs; an operation on tags shows all that it counts.
-/
def TotalIs (services : ListingServices β) (store : ListingStore) (specOp : ListOutputsSpecOp)
  (rows : List TableOutput) (result : ListOutputsResult β) : Prop :=
  result.totalOutputs =
    if specOp.resultFromTags.isSome then (result.outputs.length : Int)
    else if specOp.totalOutputsIsSumOfSatoshis then sumOfSatoshis rows
    else if specOp.filterOutputs then (spentRows services store rows).length
    else rows.length

def pageArgs
  (vargs : ValidListOutputsArgs) (descending : Bool) (page : Nat) : ValidListOutputsArgs :=
  { vargs with
    offset :=
      if descending then -1 - (page * vargs.limit : Nat)
      else (page * vargs.limit : Nat) }

def PagesPartition
  (list : ValidListOutputsArgs → Except ListingError (ListOutputsResult β)) (missing : String)
  (vargs : ValidListOutputsArgs) (rows : List TableOutput) : Prop :=
  ∀ descending : Bool, ∀ results : Nat → ListOutputsResult β,
    (∀ page, list (pageArgs vargs descending page) = .ok (results page)) →
    ∀ pages, rows.length ≤ pages * vargs.limit → ((List.range pages).flatMap fun page =>
          (results page).outputs.map (·.outpoint)) =
        (orderRows descending rows).map (outpointText missing)

/- What two storages agree on. -/
structure ListingAgreement (services : ListingServices β) (store : ListingStore) (userId : Nat)
  (vargs : ValidListOutputsArgs) : Prop where
  same : SameAnswer (Knex.listOutputs services store userId vargs)
      (Idb.listOutputsIdb services store userId vargs)
  totals : ∀ result, Knex.listOutputs services store userId vargs = .ok result ∨
          Idb.listOutputsIdb services store userId vargs = .ok result →
        TotalIs services store (specOpOf vargs) (requestedOutputs store userId vargs) result
  pages : (specOpOf vargs).resultFromTags = none → (specOpOf vargs).ignoreLimit = false →
        PagesPartition (Knex.listOutputs services store userId) "null" vargs
            (requestedOutputs store userId vargs) ∧
          PagesPartition (Idb.listOutputsIdb services store userId) "undefined" vargs
            (requestedOutputs store userId vargs)

def MatchedAlike (services : ListingServices β) (store : ListingStore) (userId : Nat)
  (vargs : ValidListOutputsArgs) (basketId : Option Nat) : Prop :=
  let request := requestWith userId vargs basketId
  (resolvedTagsOf vargs basketId).basketId ≠ none ∧
    if (specOpOf vargs).totalOutputsIsSumOfSatoshis then
      sumOfSatoshis (strayOutputs store request) = 0
    else
      LiveTags store request ∧
        if (specOpOf vargs).filterOutputs then
          ReviewAlike services store vargs ((resolvedTagsOf vargs
              basketId).specOpTags.contains "release")
            (matchingOutputs store request)
        else RowsAlike store vargs true (listedPage vargs (matchingOutputs store request))

/- Tags that cannot be matched leave nothing. -/
def UnmatchedAlike
  (store : ListingStore) (specOp : ListOutputsSpecOp) (request : ListingRequest) : Prop :=
  if specOp.totalOutputsIsSumOfSatoshis then sumOfSatoshis (matchingOutputs store request) = 0
  else matchingOutputs store request = []

/-
  When two storages agree: an operation on rows has a basket, its tags name distinct tags whose
  maps are not deleted, and the rows that it shows are alike.
-/
def ListedAlike (services : ListingServices β) (store : ListingStore) (userId : Nat)
  (vargs : ValidListOutputsArgs) : Prop :=
  ∀ basketId ∈ basketOf store userId vargs, (specOpOf vargs).resultFromTags = none →
      (CanMatch store (requestWith userId vargs basketId) →
        MatchedAlike services store userId vargs basketId) ∧
      (¬ CanMatch store (requestWith userId vargs basketId) →
        UnmatchedAlike store (specOpOf vargs) (requestWith userId vargs basketId))

-- Pages

theorem pages_flatMap {α : Type} (rows : List α) (limit pages : Nat) :
  ((range pages).flatMap fun page => (rows.drop (page * limit)).take limit) =
    rows.take (pages * limit) := by
  induction pages with
  | zero =>
    rw [Nat.zero_mul]
    rfl
  | succ pages ih =>
    rw [range_succ, flatMap_append, ih, Nat.succ_mul, take_add]
    simp only [flatMap_cons, flatMap_nil, append_nil]

theorem normalizeListOffset_pageArgs
  (vargs : ValidListOutputsArgs) (descending : Bool) (page : Nat) :
  normalizeListOffset (pageArgs vargs descending page).offset =
    (page * vargs.limit, descending) := by
  unfold normalizeListOffset pageArgs
  cases descending with
  | true =>
    simp only [if_true]
    rw [if_pos (by omega)]
    congr 1
    omega
  | false =>
    simp only [Bool.false_eq_true, if_false]
    rw [if_neg (by omega)]
    congr 1

theorem listedPage_pageArgs
  (vargs : ValidListOutputsArgs) (descending : Bool) (rows : List TableOutput) {pages : Nat}
  (hPages : rows.length ≤ pages * vargs.limit) :
  ((range pages).flatMap fun page => listedPage (pageArgs vargs descending page) rows) =
    orderRows descending rows := by
  have hPage : ∀ page, listedPage (pageArgs vargs descending page) rows =
        ((orderRows descending rows).drop (page * vargs.limit)).take vargs.limit := by
    intro page
    unfold listedPage
    rw [normalizeListOffset_pageArgs]
    rfl
  simp only [hPage]
  rw [pages_flatMap]
  apply take_of_length_le
  rw [length_orderRows]
  exact hPages

theorem pagesPartition_of_outpoints
  {β : Type} {list : ValidListOutputsArgs → Except ListingError (ListOutputsResult β)}
  {missing : String} {vargs : ValidListOutputsArgs} {rows : List TableOutput}
  (hShown : ∀ descending page result, list (pageArgs vargs descending page) = .ok result →
        result.outputs.map (·.outpoint) = (listedPage (pageArgs vargs descending page) rows).map
            (outpointText missing)) :
  PagesPartition list missing vargs rows := by
  intro descending results hResults pages hPages
  rw [← listedPage_pageArgs vargs descending rows hPages, map_flatMap]
  congr 1
  funext page
  exact hShown descending page (results page) (hResults page)

-- Answers

variable {β : Type} {services : ListingServices β} {store : ListingStore} {userId : Nat}
variable {vargs : ValidListOutputsArgs} {basketId : Option Nat}

theorem listOutputs_of_noBasket (hBasket : basketOf store userId vargs = none) :
  Knex.listOutputs services store userId vargs = .ok { totalOutputs := 0 } ∧
    listOutputsIdb services store userId vargs = .ok { totalOutputs := 0 } := by
  unfold basketOf at hBasket
  unfold Knex.listOutputs listOutputsIdb
  simp only [hBasket, and_self]

section

variable (hBasket : basketOf store userId vargs = some basketId)
include hBasket

theorem listOutputs_of_tags
  {operation : TagOperation} (hOp : (specOpOf vargs).resultFromTags = some operation) :
  Knex.listOutputs services store userId vargs =
      resultFromTags services (Knex.reads store) store userId
        vargs (resolvedTagsOf vargs basketId).specOpTags operation ∧
    listOutputsIdb services store userId vargs =
      resultFromTags services (Idb.reads store userId) store userId vargs
        (resolvedTagsOf vargs basketId).specOpTags
        operation := by
  unfold basketOf at hBasket
  unfold specOpOf at hOp
  unfold Knex.listOutputs listOutputsIdb
  simp only [hBasket, hOp]
  exact ⟨rfl, rfl⟩

theorem listOutputs_of_cannotMatch (hRows : (specOpOf vargs).resultFromTags = none)
  (hCannot : ¬ CanMatch store (requestWith userId vargs basketId)) :
  Knex.listOutputs services store userId vargs = .ok { totalOutputs := 0 } ∧
    listOutputsIdb services store userId vargs = .ok { totalOutputs := 0 } := by
  unfold basketOf at hBasket
  unfold specOpOf at hRows
  have hEmpty := Bool.of_not_eq_false hCannot
  unfold requestWith requestOf resolvedTagsOf specOpOf at hEmpty
  simp only at hEmpty
  unfold Knex.listOutputs listOutputsIdb
  simp only [hBasket, hRows, hEmpty, if_true, and_self]

theorem listOutputs_of_canMatch (hRows : (specOpOf vargs).resultFromTags = none)
  (hCan : CanMatch store (requestWith userId vargs basketId)) :
  Knex.listOutputs services store userId vargs = Knex.listResolved services store userId vargs
        (specOpOf vargs) (resolvedTagsOf vargs basketId)
        (store.findTagIds userId (resolvedTagsOf vargs basketId).tags) ∧
    listOutputsIdb services store userId vargs = listResolved services store userId vargs
        (specOpOf vargs) (resolvedTagsOf vargs basketId)
        (store.findTagIds userId (resolvedTagsOf vargs basketId).tags) := by
  unfold basketOf at hBasket
  unfold specOpOf at hRows
  unfold CanMatch requestWith requestOf resolvedTagsOf specOpOf at hCan
  simp only at hCan
  unfold Knex.listOutputs listOutputsIdb
  simp only [hBasket, hRows, hCan, Bool.false_eq_true, if_false]
  exact ⟨rfl, rfl⟩

end

theorem idb_of_noBasketId (hNone : (resolvedTagsOf vargs basketId).basketId = none) :
  listResolved services store userId vargs (specOpOf vargs) (resolvedTagsOf vargs basketId)
      (store.findTagIds userId (resolvedTagsOf vargs basketId).tags) =
    .error (.undefinedPartial "args.partial.basketId") := by
  unfold listResolved loadIdbOutputs
  rw [hNone]
  rfl

variable {specOp : ListOutputsSpecOp} {resolved : ResolvedListTags} {id : Nat}

theorem idb_paged (hContent : WalletContent store) (hPaged : IsPaged specOp)
  (hBasket : resolved.basketId = some id) :
  listResolved services store userId vargs specOp
      resolved (store.findTagIds userId resolved.tags) =
    listingResult services vargs (cursorMatching store
        (requestOf userId vargs specOp resolved)).length
      ((listedPage vargs (cursorMatching store
        (requestOf userId vargs specOp resolved))).map (shownRow true))
      (hydrateIdbOutputs store vargs [] ((listedPage vargs (cursorMatching store
          (requestOf userId vargs specOp resolved))).map (shownRow true))) := by
  have hLoaded := @loadIdbOutputs_paged store userId vargs specOp resolved
    hPaged id hBasket vargs.limit vargs.limitPositive (normalizeListOffset vargs.offset).1
    (normalizeListOffset vargs.offset).2
  rw [@loadedRows_eq store hContent (requestOf userId vargs specOp resolved) id hBasket,
    length_orderRows] at hLoaded
  unfold listResolved
  simp only [hLoaded, bind, Except.bind, Knex.filterRows,
    hPaged.review, hPaged.balance, Bool.false_eq_true, if_false]
  rfl

theorem idb_balance (hContent : WalletContent store) (hBal : IsBalance specOp)
  (hBasket : resolved.basketId = some id) :
  listResolved services store userId vargs specOp
      resolved (store.findTagIds userId resolved.tags) =
    .ok
      { totalOutputs := sumOfSatoshis (cursorMatching store
              (requestOf userId vargs specOp resolved)) } := by
  rcases @loadIdbOutputs_balance store userId vargs specOp resolved hBal id hBasket vargs.limit
      (normalizeListOffset vargs.offset).1 (normalizeListOffset vargs.offset).2 with
    ⟨total, hLoaded⟩
  rw [@loadedRows_eq store hContent (requestOf userId vargs specOp resolved) id hBasket] at hLoaded
  unfold listResolved
  simp only [hLoaded, bind, Except.bind, Knex.filterRows,
    hBal.review, hBal.balance, Bool.false_eq_true,
    if_false, if_true]
  unfold balanceResult sumOfSatoshis
  rw [List.map_map]
  have hSum := (map_orderRows (normalizeListOffset vargs.offset).2
    (cursorMatching store (requestOf userId vargs specOp resolved)) (·.satoshis)).sum_eq
  rw [← hSum]
  rfl

theorem map_outpoint_hydrateIdbOutputs
  (store : ListingStore) (vargs : ValidListOutputsArgs) (rows : List TableOutput) :
  (hydrateIdbOutputs store vargs [] (rows.map (shownRow true))).map (·.outpoint) =
    rows.map (outpointText "undefined") := by
  rw [hydrateIdbOutputs_shown, List.map_map]
  rfl

theorem map_outpoint_hydrateKnex
  (store : ListingStore) (vargs : ValidListOutputsArgs) (rows : List TableOutput) :
  (rows.map (Knex.hydrateKnexWalletOutput store vargs)).map (·.outpoint) =
    rows.map (outpointText "null") := by
  rw [List.map_map]
  rfl

-- Agreement of each operation

variable {β : Type} {services : ListingServices β} {store : ListingStore} {userId : Nat}
variable {vargs : ValidListOutputsArgs} {basketId : Option Nat} {id : Nat}

theorem requestedOutputs_eq (hBasket : basketOf store userId vargs = some basketId) :
  requestedOutputs store userId vargs =
    matchingOutputs store (requestWith userId vargs basketId) := by
  unfold requestedOutputs
  rw [hBasket]
  rfl

theorem listedPage_nil (vargs : ValidListOutputsArgs) : listedPage vargs [] = [] := by
  unfold listedPage orderRows
  rw [reverse_nil, ite_self, drop_nil, take_nil]

/- Empty listings agree on what is not there. -/
theorem agreement_of_nothing
  (hNothing : ∀ offset, Knex.listOutputs services store userId
          { vargs with offset := offset } =
          .ok { totalOutputs := 0 } ∧
        listOutputsIdb services store userId { vargs with offset := offset } =
          .ok { totalOutputs := 0 })
  (hTotal : TotalIs services store (specOpOf vargs) (requestedOutputs store userId vargs)
      { totalOutputs := 0 })
  (hRows : (specOpOf vargs).resultFromTags = none → (specOpOf vargs).ignoreLimit = false →
        requestedOutputs store userId vargs = []) :
  ListingAgreement services store userId vargs := by
  rcases hNothing vargs.offset with ⟨hKnex, hIdb⟩
  constructor
  case same =>
    rw [hKnex, hIdb]
    exact ⟨rfl, List.Forall₂.nil, rfl⟩
  case totals =>
    intro result hRes
    rw [hKnex, hIdb, or_self] at hRes
    cases hRes
    exact hTotal
  case pages =>
    intro hTags hLimit
    rw [hRows hTags hLimit]
    constructor
    · apply pagesPartition_of_outpoints
      intro descending page result hRes
      cases (hNothing _).1.symm.trans hRes
      rw [listedPage_nil]
      rfl
    · apply pagesPartition_of_outpoints
      intro descending page result hRes
      cases (hNothing _).2.symm.trans hRes
      rw [listedPage_nil]
      rfl

theorem agreement_of_noBasket (hBasket : basketOf store userId vargs = none) :
  ListingAgreement services store userId vargs := by
  have hEmpty : requestedOutputs store userId vargs = [] := by
    unfold requestedOutputs
    rw [hBasket]
    rfl
  apply agreement_of_nothing
  · intro offset
    exact listOutputs_of_noBasket hBasket
  · rw [hEmpty]
    unfold TotalIs
    split
    · rfl
    · split
      · rfl
      · split
        · rfl
        · rfl
  · intro _ _
    exact hEmpty

theorem agreement_of_cannotMatch (hBasket : basketOf store userId vargs = some basketId)
  (hRows : (specOpOf vargs).resultFromTags = none)
  (hCannot : ¬ CanMatch store (requestWith userId vargs basketId))
  (hAlike : UnmatchedAlike store (specOpOf vargs) (requestWith userId vargs basketId)) :
  ListingAgreement services store userId vargs := by
  have hEq : requestedOutputs store userId vargs =
        matchingOutputs store (requestWith userId vargs basketId) :=
    requestedOutputs_eq hBasket
  have hKind : KindOfRows (specOpOf vargs) := specOp_kinds vargs.basket vargs.tags hRows
  unfold UnmatchedAlike at hAlike
  apply agreement_of_nothing
  · intro offset
    exact @listOutputs_of_cannotMatch β services store userId
      { vargs with offset := offset } basketId hBasket hRows
      hCannot
  · rw [hEq]
    unfold TotalIs
    rw [if_neg (by rw [hRows]; exact Bool.false_ne_true)]
    split
    · rename_i hSum
      rw [if_pos hSum] at hAlike
      exact hAlike.symm
    · rename_i hSum
      rw [if_neg hSum] at hAlike
      rw [hAlike, ite_eq_left_iff.mpr]
      · rfl
      · intro _
        rfl
  · intro _ hLimit
    have hSum : (specOpOf vargs).totalOutputsIsSumOfSatoshis =
          false := by
      rcases hKind with hPaged | hBal | hReview
      · exact hPaged.sum
      · rw [hBal.ignoreLimit] at hLimit
        cases hLimit
      · exact hReview.sum
    rw [hSum, if_neg Bool.false_ne_true] at hAlike
    rw [hEq, hAlike]

theorem total_resultFromTags
  {reads : PrefixReads} {specOpTags : List String} {operation : TagOperation}
  {result : ListOutputsResult β}
  (hOk : resultFromTags services reads store userId vargs specOpTags operation = .ok result) :
  result.totalOutputs = result.outputs.length := by
  cases operation with
  | setWalletChangeParams =>
    simp only [resultFromTags, setWalletChangeParams] at hOk
    split at hOk
    · split at hOk
      · split at hOk
        · cases hOk
          rfl
        · cases hOk
        · cases hOk
      · cases hOk
    · cases hOk
  | basketPrefixOutputs =>
    simp only [resultFromTags, listBasketPrefixOutputs] at hOk
    split at hOk
    · cases hOk
    · split at hOk
      · cases hOk
      · rcases listingResult_eq_ok_iff.mp hOk with ⟨beef, -, rfl⟩
        simp only [length_map]

section

variable (hContent : WalletContent store) (hBasket : basketOf store userId vargs = some basketId)

include hContent hBasket

theorem agreement_of_tags
  {operation : TagOperation} (hOp : (specOpOf vargs).resultFromTags = some operation) :
  ListingAgreement services store userId vargs := by
  rcases @listOutputs_of_tags β services store userId vargs basketId hBasket operation hOp with
    ⟨hKnex, hIdb⟩
  constructor
  case same =>
    rw [hKnex, hIdb]
    exact sameAnswer_resultFromTags hContent vargs _ operation
  case totals =>
    intro result hRes
    unfold TotalIs
    rw [if_pos (by rw [hOp]; rfl)]
    rcases hRes with hRes | hRes
    · exact total_resultFromTags (hKnex.symm.trans hRes)
    · exact total_resultFromTags (hIdb.symm.trans hRes)
  case pages =>
    intro hNone
    rw [hOp] at hNone
    cases hNone

theorem agreement_of_balance
  (hRows : (specOpOf vargs).resultFromTags = none) (hBal : IsBalance (specOpOf vargs))
  (hCan : CanMatch store (requestWith userId vargs basketId))
  (hId : (resolvedTagsOf vargs basketId).basketId = some id)
  (hStray : sumOfSatoshis (strayOutputs store (requestWith userId vargs basketId)) = 0) :
  ListingAgreement services store userId vargs := by
  rcases @listOutputs_of_canMatch β services store userId vargs basketId hBasket hRows hCan with
    ⟨hKnex, hIdb⟩
  rw [knex_balance hContent hBal hCan] at hKnex
  rw [idb_balance hContent hBal hId] at hIdb
  have hTotal : sumOfSatoshis (cursorMatching store (requestWith userId vargs basketId)) =
        sumOfSatoshis (matchingOutputs store (requestWith userId vargs basketId)) := by
    rw [sumOfSatoshis_cursorMatching hContent hCan, hStray, add_zero]
  have hSame : listOutputsIdb services store userId vargs =
        Knex.listOutputs services store userId vargs := by
    rw [hIdb, hKnex]
    unfold requestWith at hTotal
    rw [hTotal]
    rfl
  constructor
  case same =>
    rw [hSame, hKnex]
    exact ⟨rfl, List.Forall₂.nil, rfl⟩
  case totals =>
    intro result hRes
    rw [hSame, or_self, hKnex] at hRes
    cases hRes
    unfold TotalIs
    rw [if_neg (by rw [hRows]; exact Bool.false_ne_true),
      if_pos hBal.sum, requestedOutputs_eq hBasket]
    rfl
  case pages =>
    intro _ hLimit
    rw [hBal.ignoreLimit] at hLimit
    cases hLimit

end

-- Agreement of pages and reviews

variable {β : Type} {services : ListingServices β} {store : ListingStore} {userId : Nat}
variable {vargs : ValidListOutputsArgs} {basketId : Option Nat} {id : Nat}

section

variable (hContent : WalletContent store)
include hContent

section

variable
    (hBasket : basketOf store userId vargs = some basketId)
    (hRows : (specOpOf vargs).resultFromTags = none)
    (hPaged : IsPaged (specOpOf vargs))
    (hCan : CanMatch store (requestWith userId vargs basketId))

include hBasket hRows hPaged hCan

theorem knex_page :
  Knex.listOutputs services store userId vargs =
    listingResult services vargs (matchingOutputs store
        (requestWith userId vargs basketId)).length
      (listedPage vargs (matchingOutputs store (requestWith userId vargs basketId)))
      ((listedPage vargs (matchingOutputs store (requestWith userId vargs basketId))).map
          (Knex.hydrateKnexWalletOutput store vargs)) := by
  rw [(listOutputs_of_canMatch hBasket hRows hCan).1]
  exact knex_paged hContent hPaged hCan

theorem idb_page (hId : (resolvedTagsOf vargs basketId).basketId = some id) :
  listOutputsIdb services store userId vargs =
    listingResult services vargs (cursorMatching store (requestWith userId vargs basketId)).length
      ((listedPage vargs (cursorMatching store
        (requestWith userId vargs basketId))).map (shownRow true))
      (hydrateIdbOutputs store vargs [] ((listedPage vargs (cursorMatching store
          (requestWith userId vargs basketId))).map (shownRow true))) := by
  rw [(listOutputs_of_canMatch hBasket hRows hCan).2]
  exact idb_paged hContent hPaged hId

theorem agreement_of_page (hId : (resolvedTagsOf vargs basketId).basketId = some id)
  (hLive : LiveTags store (requestWith userId vargs basketId))
  (hAlike : RowsAlike store vargs true (listedPage vargs (matchingOutputs store
          (requestWith userId vargs basketId)))) :
  ListingAgreement services store userId vargs := by
  have hKnex := @knex_page β services store userId vargs basketId hContent hBasket hRows hPaged hCan
  have hIdb :=
    @idb_page β services store userId vargs basketId id hContent hBasket hRows hPaged hCan hId
  have hAsked := cursorMatching_eq hContent hCan hLive
  rw [hAsked] at hIdb
  constructor
  case same =>
    rw [hKnex, hIdb]
    apply sameAnswer_listing
    · exact (@mergeTransactions_map β services vargs (shownRow true) (fun _ => rfl) _).symm
    · exact sameOutputs_of_rowsAlike hAlike
  case totals =>
    intro result hRes
    unfold TotalIs
    rw [if_neg (by rw [hRows]; exact Bool.false_ne_true), if_neg (ne_true_of_eq_false hPaged.sum),
      if_neg (ne_true_of_eq_false hPaged.review),
      requestedOutputs_eq hBasket]
    rw [hKnex, hIdb] at hRes
    rcases hRes with hRes | hRes
    · rcases listingResult_eq_ok_iff.mp hRes with ⟨beef, -, rfl⟩
      rfl
    · rcases listingResult_eq_ok_iff.mp hRes with ⟨beef, -, rfl⟩
      rfl
  case pages =>
    intro _ _
    rw [requestedOutputs_eq hBasket]
    constructor
    · apply pagesPartition_of_outpoints
      intro descending page result hRes
      have hPage :=
        @knex_page β services store userId (pageArgs vargs descending page) basketId hContent
          hBasket hRows hPaged hCan
      rcases listingResult_eq_ok_iff.mp (hPage.symm.trans hRes) with ⟨beef, -, rfl⟩
      exact map_outpoint_hydrateKnex store _ _
    · apply pagesPartition_of_outpoints
      intro descending page result hRes
      have hPage :=
        @idb_page β services store userId (pageArgs vargs descending page) basketId id hContent
          hBasket hRows hPaged hCan hId
      rcases listingResult_eq_ok_iff.mp (hPage.symm.trans hRes) with ⟨beef, -, rfl⟩
      change (hydrateIdbOutputs store _ [] ((listedPage _ (cursorMatching store
        (requestWith userId vargs basketId))).map (shownRow true))).map (·.outpoint) = _
      rw [hAsked]
      exact map_outpoint_hydrateIdbOutputs store _ _

end

theorem idb_review_total (hReview : IsReview (specOpOf vargs))
  (hCan : CanMatch store (requestWith userId vargs basketId))
  (hId : (resolvedTagsOf vargs basketId).basketId = some id)
  (hLive : LiveTags store (requestWith userId vargs basketId)) {result : ListOutputsResult β}
  (hOk :
    listResolved services store userId vargs (specOpOf vargs) (resolvedTagsOf vargs basketId)
        (store.findTagIds userId (resolvedTagsOf vargs basketId).tags) =
      .ok result) :
  result.totalOutputs = (spentRows services store (matchingOutputs store
        (requestWith userId vargs basketId))).length := by
  rw [idb_review hContent hReview hId hCan hLive] at hOk
  split at hOk
  · cases hOk
  · rcases hReviewed : reviewUtxoOutputs services store userId
          (reviewRows store userId vargs (specOpOf vargs) (resolvedTagsOf vargs basketId))
          ((resolvedTagsOf vargs basketId).specOpTags.contains "release") with
      error | ⟨outputs, reviewed⟩
    · rw [hReviewed] at hOk
      cases hOk
    · rw [hReviewed] at hOk
      rcases listingResult_eq_ok_iff.mp hOk with ⟨beef, -, rfl⟩
      rcases review_eq_ok hReviewed with ⟨rfl, -, -⟩
      unfold reviewRows
      simp only [spentRows_orderRows, length_map, length_orderRows]
      rfl

theorem agreement_of_review (hBasket : basketOf store userId vargs = some basketId)
  (hRows : (specOpOf vargs).resultFromTags = none) (hReview : IsReview (specOpOf vargs))
  (hCan : CanMatch store (requestWith userId vargs basketId))
  (hId : (resolvedTagsOf vargs basketId).basketId = some id)
  (hLive : LiveTags store (requestWith userId vargs basketId))
  (hAlike : ReviewAlike services store vargs ((resolvedTagsOf vargs
        basketId).specOpTags.contains "release")
      (matchingOutputs store (requestWith userId vargs basketId))) :
  ListingAgreement services store userId vargs := by
  rcases @listOutputs_of_canMatch β services store userId vargs basketId hBasket hRows hCan with
    ⟨hKnex, hIdb⟩
  have hSame := @sameAnswer_review β services store userId vargs
    (specOpOf vargs) (resolvedTagsOf vargs basketId) hContent hReview id hId hCan hLive hAlike
  rw [← hKnex, ← hIdb] at hSame
  have hIdbTotal : ∀ result, listOutputsIdb services store userId vargs = .ok result →
          result.totalOutputs = (spentRows services store (matchingOutputs store
            (requestWith userId vargs basketId))).length :=
    fun result hOk => idb_review_total hContent hReview hCan hId hLive (hIdb.symm.trans hOk)
  constructor
  case same => exact hSame
  case totals =>
    intro result hRes
    unfold TotalIs
    rw [if_neg (by rw [hRows]; exact Bool.false_ne_true), if_neg (ne_true_of_eq_false hReview.sum),
      if_pos hReview.review, requestedOutputs_eq hBasket]
    rcases hRes with hRes | hRes
    · rw [hRes] at hSame
      cases hOther : listOutputsIdb services store userId vargs with
      | error error =>
        rw [hOther] at hSame
        exact hSame.elim
      | ok other =>
        rw [hOther] at hSame
        rw [SameResult.totalOutputs hSame]
        exact hIdbTotal other hOther
    · exact hIdbTotal result hRes
  case pages =>
    intro _ hLimit
    rw [hReview.ignoreLimit] at hLimit
    cases hLimit

end

-- Both storages

variable {β : Type} {services : ListingServices β} {store : ListingStore} {userId : Nat}
variable {vargs : ValidListOutputsArgs} {basketId : Option Nat}

theorem agreement_of_matched
  (hContent : WalletContent store) (hBasket : basketOf store userId vargs = some basketId)
  (hRows : (specOpOf vargs).resultFromTags = none)
  (hCan : CanMatch store (requestWith userId vargs basketId))
  (hAlike : MatchedAlike services store userId vargs basketId) :
  ListingAgreement services store userId vargs := by
  have hKind : KindOfRows (specOpOf vargs) := specOp_kinds vargs.basket vargs.tags hRows
  rcases hAlike with ⟨hNamed, hAlike⟩
  rcases Option.ne_none_iff_exists'.mp hNamed with ⟨id, hId⟩
  rcases hKind with hPaged | hBal | hReview
  · rw [if_neg (ne_true_of_eq_false hPaged.sum),
      if_neg (ne_true_of_eq_false hPaged.review)] at hAlike
    exact agreement_of_page hContent hBasket hRows hPaged hCan hId hAlike.1 hAlike.2
  · rw [if_pos hBal.sum] at hAlike
    exact agreement_of_balance hContent hBasket hRows hBal hCan hId hAlike
  · rw [if_neg (ne_true_of_eq_false hReview.sum), if_pos hReview.review] at hAlike
    exact agreement_of_review hContent hBasket hRows hReview hCan hId hAlike.1 hAlike.2

theorem agreement_of_listedAlike
  (hContent : WalletContent store) (hAlike : ListedAlike services store userId vargs) :
  ListingAgreement services store userId vargs := by
  cases hBasket : basketOf store userId vargs with
  | none => exact agreement_of_noBasket hBasket
  | some basketId =>
    cases hTags : (specOpOf vargs).resultFromTags with
    | some operation => exact agreement_of_tags hContent hBasket hTags
    | none =>
      rcases hAlike basketId hBasket hTags with ⟨hMatched, hUnmatched⟩
      by_cases hCan : CanMatch store (requestWith userId vargs basketId)
      · exact agreement_of_matched hContent hBasket hTags hCan (hMatched hCan)
      · exact agreement_of_cannotMatch hBasket hTags hCan (hUnmatched hCan)

theorem exists_of_same
  (hAgree : ListingAgreement services store userId vargs) {result : ListOutputsResult β}
  (hKnex : Knex.listOutputs services store userId vargs = .ok result) :
  ∃ other, listOutputsIdb services store userId vargs = .ok other ∧
      SameResult result other := by
  have hSame := hAgree.same
  rw [hKnex] at hSame
  cases hIdb : listOutputsIdb services store userId vargs with
  | error error =>
    rw [hIdb] at hSame
    exact hSame.elim
  | ok other =>
    rw [hIdb] at hSame
    exact ⟨other, rfl, hSame⟩

theorem matched_of_agreement
  (hContent : WalletContent store) (hBasket : basketOf store userId vargs = some basketId)
  (hRows : (specOpOf vargs).resultFromTags = none)
  (hNoReview : (specOpOf vargs).filterOutputs = false)
  (hCan : CanMatch store (requestWith userId vargs basketId)) {result : ListOutputsResult β}
  (hKnex : Knex.listOutputs services store userId vargs = .ok result)
  (hAgree : ListingAgreement services store userId vargs) :
  MatchedAlike services store userId vargs basketId := by
  have hKind : KindOfRows (specOpOf vargs) := specOp_kinds vargs.basket vargs.tags hRows
  rcases exists_of_same hAgree hKnex with ⟨other, hIdb, hSame⟩
  have hNamed : (resolvedTagsOf vargs basketId).basketId ≠ none := by
    intro hNone
    rw [(listOutputs_of_canMatch hBasket hRows hCan).2, idb_of_noBasketId hNone] at hIdb
    cases hIdb
  rcases Option.ne_none_iff_exists'.mp hNamed with ⟨id, hId⟩
  refine ⟨hNamed, ?_⟩
  rcases hKind with hPaged | hBal | hReview
  · rw [if_neg (ne_true_of_eq_false hPaged.sum), if_neg (ne_true_of_eq_false hPaged.review)]
    rw [knex_page hContent hBasket hRows hPaged hCan] at hKnex
    rw [idb_page hContent hBasket hRows hPaged hCan hId] at hIdb
    rcases listingResult_eq_ok_iff.mp hKnex with ⟨beef, -, rfl⟩
    rcases listingResult_eq_ok_iff.mp hIdb with ⟨beef, -, rfl⟩
    have hLive : LiveTags store (requestWith userId vargs basketId) := by
      apply liveTags_of_length hContent hCan
      exact (Int.ofNat_inj.mp hSame.totalOutputs).symm
    have hOuts := hSame.outputs
    simp only [cursorMatching_eq hContent hCan hLive] at hOuts
    exact ⟨hLive, rowsAlike_of_sameOutputs hOuts⟩
  · rw [if_pos hBal.sum]
    rw [(listOutputs_of_canMatch hBasket hRows hCan).1,
      knex_balance hContent hBal hCan] at hKnex
    rw [(listOutputs_of_canMatch hBasket hRows hCan).2, idb_balance hContent hBal hId] at hIdb
    cases hKnex
    cases hIdb
    have hTotal : sumOfSatoshis (matchingOutputs store (requestWith userId vargs basketId)) =
          sumOfSatoshis (cursorMatching store (requestWith userId vargs basketId)) :=
      hSame.totalOutputs
    rw [sumOfSatoshis_cursorMatching hContent hCan] at hTotal
    omega
  · rw [hReview.review] at hNoReview
    cases hNoReview

theorem unmatched_of_agreement (hBasket : basketOf store userId vargs = some basketId)
  (hRows : (specOpOf vargs).resultFromTags = none)
  (hNoReview : (specOpOf vargs).filterOutputs = false)
  (hCannot : ¬ CanMatch store (requestWith userId vargs basketId))
  (hAgree : ListingAgreement services store userId vargs) :
  UnmatchedAlike store (specOpOf vargs) (requestWith userId vargs basketId) := by
  have hTotal := hAgree.totals _ (Or.inl (listOutputs_of_cannotMatch hBasket hRows hCannot).1)
  unfold TotalIs at hTotal
  rw [if_neg (by rw [hRows]; exact Bool.false_ne_true), requestedOutputs_eq hBasket] at hTotal
  unfold UnmatchedAlike
  split
  · rename_i hSum
    rw [if_pos hSum] at hTotal
    exact hTotal.symm
  · rename_i hSum
    rw [if_neg hSum, if_neg (ne_true_of_eq_false hNoReview)] at hTotal
    exact length_eq_zero_iff.mp (Int.ofNat_inj.mp hTotal.symm)

/-
  Over the content of any wallet the storages agree on a listing that is alike in both; and where
  the first returns a listing that is no review, they agree on no other.
-/
theorem listings_agree (services : ListingServices β) (store : ListingStore) (userId : Nat)
  (vargs : ValidListOutputsArgs) (hContent : WalletContent store) :
  (ListedAlike services store userId vargs → ListingAgreement services store userId vargs) ∧
    ((specOpOf vargs).filterOutputs = false → (∃ result,
        Knex.listOutputs services store userId vargs = .ok result) →
        ListingAgreement services store userId vargs →
          ListedAlike services store userId vargs) := by
  constructor
  · exact agreement_of_listedAlike hContent
  · rintro hNoReview ⟨result, hKnex⟩ hAgree basketId hBasket hRows
    constructor
    · intro hCan
      exact matched_of_agreement hContent hBasket hRows hNoReview hCan hKnex hAgree
    · intro hCannot
      exact unmatched_of_agreement hBasket hRows hNoReview hCannot hAgree

def quietServices : ListingServices Unit where
  verdict := fun _ => .unspent
  emptyBeef := ()
  hasTxid := fun _ _ => false
  getValidBeefForKnownTxid := fun _ beef => .ok beef
  toInteger := fun _ => none

/- A wallet of one payment, which has a tag. -/
def paidOutput : TableOutput where
  createdAt := 0
  updatedAt := 0
  outputId := 1
  userId := 1
  transactionId := 1
  basketId := some 1
  spendable := true
  change := false
  vout := 0
  satoshis := 5
  txid := some "11"

def paidWallet : ListingStore where
  transactions :=
    [{ createdAt := 0
       updatedAt := 0
       transactionId := 1
       userId := 1
       reference := "a"
       isOutgoing := false
       satoshis := 5
       txid := some "11"
       status := .completed }]
  outputs := [paidOutput]
  baskets := [⟨1, 1, "default", false⟩]
  tags := [⟨1, 1, "paid", false⟩]
  tagMaps := [⟨1, 1, false⟩]

def taggedArgs : ValidListOutputsArgs where
  basket := "default"
  tags := ["paid"]
  includeTags := true
  limit := 1

theorem walletContent_paidWallet : WalletContent paidWallet :=
  ⟨by decide +kernel, by decide +kernel, by decide +kernel⟩

theorem listedAlike_paidWallet : ListedAlike quietServices paidWallet 1 taggedArgs := by
  intro basketId hBasket _
  have hOne : basketOf paidWallet 1 taggedArgs = some (some 1) := by decide +kernel
  cases hOne.symm.trans hBasket
  have hCan : CanMatch paidWallet (requestWith 1 taggedArgs (some 1)) := by
    unfold CanMatch
    decide +kernel
  have hPage :
      listedPage taggedArgs (matchingOutputs paidWallet (requestWith 1 taggedArgs (some 1))) =
        [paidOutput] := by
    decide +kernel
  have hAlike : RowsAlike paidWallet taggedArgs true [paidOutput] := by
    constructor
    · decide
    · exact fun hScripts => absurd hScripts Bool.false_ne_true
    · exact fun hLabels => absurd hLabels Bool.false_ne_true
    · exact fun hLabels => absurd hLabels Bool.false_ne_true
  refine ⟨fun _ => ⟨by decide +kernel, ?_⟩, fun hCannot => absurd hCan hCannot⟩
  rw [if_neg (by decide +kernel), if_neg (by decide +kernel), hPage]
  exact ⟨by decide +kernel, hAlike⟩

theorem listings_agree_paidWallet : ListingAgreement quietServices paidWallet 1 taggedArgs :=
  (listings_agree quietServices paidWallet 1 taggedArgs
    walletContent_paidWallet).1 listedAlike_paidWallet

def reviewAllArgs : ValidListOutputsArgs where
  basket := specOpInvalidChange
  tags := ["all"]

theorem reviewAll_refused :
  ¬ ListingAgreement quietServices paidWallet 1
      reviewAllArgs := by
  intro hAgree
  have hSame := hAgree.same
  have hKnex :
      Knex.listOutputs quietServices paidWallet 1 reviewAllArgs = .ok { totalOutputs := 0 } := by
    decide +kernel
  have hIdb : Idb.listOutputsIdb quietServices paidWallet 1 reviewAllArgs =
        .error (.undefinedPartial "args.partial.basketId") := by
    decide +kernel
  rw [hKnex, hIdb] at hSame
  exact hSame

end TsStack.Wallet
