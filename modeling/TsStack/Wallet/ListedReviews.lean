import TsStack.Wallet.ListedSame

/-
  Reviews of change, and the outputs of a prefix of baskets,
  over both storages.

  Both storages call one review, the second with the scripts
  of its rows read once more.  A review shows the rows that
  are confirmed spent, and what it releases are their rows
  alone, so labels and tags stay.
-/

-- Reviews

open List

namespace TsStack.Wallet

open Knex SameAnswer

variable {β : Type} {services : ListingServices β} {store : ListingStore} {userId : Nat}
variable {rows : List TableOutput}

def spentRows (services : ListingServices β) (store : ListingStore)
  (rows : List TableOutput) : List TableOutput :=
  (classifyCandidates store rows).filter (services.verdict · == .spent)

theorem map_read_orderRows
  (descending : Bool) (rows : List TableOutput) (read : TableOutput → TableOutput) :
  (orderRows descending rows).map read = orderRows descending (rows.map read) := by
  unfold orderRows
  split
  · exact map_reverse
  · rfl

theorem spentRows_orderRows (descending : Bool) (rows : List TableOutput) :
  spentRows services store (orderRows descending rows) =
    orderRows descending (spentRows services store rows) := by
  unfold spentRows classifyCandidates
  rw [filter_orderRows, map_read_orderRows, filter_orderRows]

theorem validateCandidates_map
  {read : TableOutput → TableOutput} (hId : ∀ row, (read row).outputId = row.outputId)
  (hUser : ∀ row, (read row).userId = row.userId)
  (hSatoshis : ∀ row, (read row).satoshis = row.satoshis) (rows : List TableOutput)
  (ids : List Nat) :
  validateCandidates userId (rows.map read) ids = validateCandidates userId rows ids := by
  induction rows generalizing ids with
  | nil => rfl
  | cons row rows ih =>
    rw [map_cons]
    unfold validateCandidates
    rw [hId, hUser, hSatoshis]
    simp only [ih]

theorem classifyCandidates_validated (store : ListingStore) (rows : List TableOutput) :
  classifyCandidates store (rows.map store.validateOutputScript) =
    classifyCandidates store rows := by
  unfold classifyCandidates
  rw [List.filter_map, List.map_map]
  have hBasket : ((fun row : TableOutput => row.basketId.isSome) ∘ store.validateOutputScript) =
    fun row => row.basketId.isSome := rfl
  rw [hBasket]
  apply map_congr_left
  intro row _
  exact validateOutputScript_idem store row

theorem reviewUtxoOutputs_validated (rows : List TableOutput) (release : Bool) :
  reviewUtxoOutputs services store userId (rows.map store.validateOutputScript) release =
    reviewUtxoOutputs services store userId rows
      release := by
  have hCands : validateCandidates userId (rows.map store.validateOutputScript) [] =
        validateCandidates userId rows [] :=
    @validateCandidates_map userId store.validateOutputScript
      (fun _ => rfl) (fun _ => rfl) (fun _ => rfl) rows []
  unfold reviewUtxoOutputs
  rw [length_map, hCands, classifyCandidates_validated]

theorem releaseConfirmedSpent_labels
  {released : ListingStore} {labels : List TableTxLabel} {labelMaps : List TableTxLabelMap}
  (hReleased : releaseConfirmedSpent store userId rows = .ok released)
  (hLabels : store.labels = labels ∧ store.labelMaps = labelMaps) :
  released.labels = labels ∧ released.labelMaps = labelMaps := by
  unfold releaseConfirmedSpent at hReleased
  induction rows generalizing store with
  | nil =>
    cases hReleased
    exact hLabels
  | cons row rows ih =>
    rw [foldlM_cons] at hReleased
    split at hReleased
    · split at hReleased
      · cases hReleased
      · split at hReleased
        · cases hReleased
        · exact ih hReleased hLabels
    · cases hReleased
    · cases hReleased

def releasedRow (release : Bool) (row : TableOutput) : TableOutput :=
  { row with spendable := !release && row.spendable }

theorem review_eq_ok {release : Bool} {outputs : List TableOutput} {reviewed : ListingStore}
  (hOk : reviewUtxoOutputs services store userId rows release = .ok (outputs, reviewed)) :
  outputs = (spentRows services store rows).map (releasedRow release) ∧
    (reviewed.labels = store.labels ∧ reviewed.labelMaps = store.labelMaps) ∧
    (release = false → reviewed = store) := by
  unfold reviewUtxoOutputs at hOk
  simp only [bind, Except.bind] at hOk
  split at hOk
  · cases hOk
  · split at hOk
    · cases hOk
    · cases release with
      | false =>
        simp only [Bool.false_eq_true, if_false] at hOk
        split at hOk
        · cases hOk
        · cases hOk
          refine ⟨?_, ⟨rfl, rfl⟩, fun _ => rfl⟩
          exact (List.map_id _).symm
      | true =>
        simp only [if_true] at hOk
        split at hOk
        · split at hOk <;> cases hOk
        · split at hOk
          · cases hOk
          · rename_i released hReleased
            split at hOk
            · cases hOk
            · cases hOk
              exact ⟨rfl, releaseConfirmedSpent_labels hReleased ⟨rfl, rfl⟩,
                fun hNo => absurd hNo nofun⟩

theorem rowsAlike_of_labels
  {reviewed : ListingStore} {vargs : ValidListOutputsArgs} {others : List TableOutput}
  (hLabels : reviewed.labels = store.labels ∧ reviewed.labelMaps = store.labelMaps)
  (hRows : ∀ row ∈ rows, ∃ other ∈ others, row.txid = other.txid ∧
        row.transactionId = other.transactionId)
  (hAlike : RowsAlike store vargs false others) : RowsAlike reviewed vargs false rows := by
  have hSame : ∀ transactionId, Idb.getLabelsForTransactionId reviewed transactionId =
        Idb.getLabelsForTransactionId store transactionId := by
    intro transactionId
    unfold Idb.getLabelsForTransactionId
    rw [hLabels.1, hLabels.2]
  constructor
  case txid =>
    intro row hRow
    rcases hRows row hRow with ⟨other, hOther, hTxid, -⟩
    rw [hTxid]
    exact hAlike.txid other hOther
  case scripts =>
    intro _ hDropped
    cases hDropped
  case labelled =>
    intro hInclude row hRow
    rcases hRows row hRow with ⟨other, hOther, hTxid, -⟩
    rw [hTxid]
    exact hAlike.labelled hInclude other hOther
  case labels =>
    intro hInclude row hRow next hNext hTxid name
    rcases hRows row hRow with ⟨first, hFst, hFstTxid, hFstId⟩
    rcases hRows next hNext with ⟨second, hSnd, hSndTxid, hSndId⟩
    rw [hSame, hSame, hFstId, hSndId]
    exact hAlike.labels hInclude first hFst second hSnd
      (hFstTxid.symm.trans (hTxid.trans hSndTxid)) name

-- Answers of a review

variable {β : Type} {services : ListingServices β} {store : ListingStore} {userId : Nat}
variable {vargs : ValidListOutputsArgs} {specOp : ListOutputsSpecOp} {resolved : ResolvedListTags}

def reviewRows (store : ListingStore) (userId : Nat) (vargs : ValidListOutputsArgs)
  (specOp : ListOutputsSpecOp) (resolved : ResolvedListTags) : List TableOutput :=
  orderRows (normalizeListOffset vargs.offset).2 (matchingOutputs store
      (requestOf userId vargs specOp resolved))

theorem knex_review (hCont : WalletContent store) (hReview : IsReview specOp)
  (hCan : CanMatch store (requestOf userId vargs specOp resolved)) :
  listResolved services store userId vargs specOp
      resolved (store.findTagIds userId resolved.tags) =
    if MAX_UTXO_REVIEW_CANDIDATES < (reviewRows store userId vargs specOp resolved).length then
      .error (.tooManyCandidates specOp.name MAX_UTXO_REVIEW_CANDIDATES)
    else
      (reviewUtxoOutputs services store userId (reviewRows store userId vargs specOp resolved)
          (resolved.specOpTags.contains "release")).bind
        fun answer =>
          listingResult services vargs (resolveKnexListTotal answer.1.length vargs.limit 0
              (baseQuery answer.2 userId resolved.basketId false specOp.managedChangeOnly
                (store.findTagIds userId resolved.tags) vargs.tagQueryModeAll).length)
            answer.1 (answer.1.map (hydrateKnexWalletOutput answer.2 vargs)) := by
  have hRows : baseQuery store userId resolved.basketId false specOp.managedChangeOnly
          (store.findTagIds userId resolved.tags) vargs.tagQueryModeAll =
        matchingOutputs store (requestOf userId vargs specOp resolved) :=
    baseQuery_eq_matching hCont hCan
  unfold listResolved reviewRows
  simp only [hReview.spent, hRows, hReview.sum,
    hReview.balance, Bool.false_eq_true, if_false, if_true, selectRows, hReview.ignoreLimit,
    checkCandidateCount, hReview.maximum, filterRows, hReview.review, length_take]
  generalize orderRows (normalizeListOffset vargs.offset).2
    (matchingOutputs store (requestOf userId vargs specOp resolved)) = rows
  by_cases hMany : MAX_UTXO_REVIEW_CANDIDATES < rows.length
  · have hTaken : MAX_UTXO_REVIEW_CANDIDATES < min (MAX_UTXO_REVIEW_CANDIDATES + 1)
            rows.length := by
      omega
    simp only [if_pos hMany, if_pos hTaken]
    rfl
  · have hTaken : ¬ MAX_UTXO_REVIEW_CANDIDATES < min (MAX_UTXO_REVIEW_CANDIDATES + 1)
            rows.length := by
      omega
    have hWhole : rows.take (MAX_UTXO_REVIEW_CANDIDATES + 1) = rows :=
      take_of_length_le (by omega)
    simp only [if_neg hMany, if_neg hTaken, hWhole]
    rfl

theorem idb_review (hCont : WalletContent store) (hReview : IsReview specOp) {basketId : Nat}
  (hBasket : resolved.basketId = some basketId)
  (hCan : CanMatch store (requestOf userId vargs specOp resolved))
  (hLive : LiveTags store (requestOf userId vargs specOp resolved)) :
  Idb.listResolved services store userId vargs specOp
      resolved (store.findTagIds userId resolved.tags) =
    if MAX_UTXO_REVIEW_CANDIDATES < (reviewRows store userId vargs specOp resolved).length then
      .error (.tooManyCandidates specOp.name MAX_UTXO_REVIEW_CANDIDATES)
    else
      (reviewUtxoOutputs services store userId (reviewRows store userId vargs specOp resolved)
          (resolved.specOpTags.contains "release")).bind
        fun answer =>
          listingResult services vargs answer.1.length answer.1
            (Idb.hydrateIdbOutputs answer.2 vargs [] answer.1) := by
  rcases loadIdbOutputs_review hReview hBasket vargs.limit (normalizeListOffset vargs.offset).1
      (normalizeListOffset vargs.offset).2 with
    ⟨total, hLoaded⟩
  rw [@loadedRows_eq store hCont (requestOf userId vargs specOp resolved) basketId hBasket,
    cursorMatching_eq hCont hCan hLive] at hLoaded
  unfold Idb.listResolved
  simp only [hLoaded, hReview.balance, Bool.false_eq_true,
    if_false, filterRows, hReview.review, if_true]
  unfold reviewRows
  by_cases hMany : MAX_UTXO_REVIEW_CANDIDATES <
    (orderRows (normalizeListOffset vargs.offset).2 (matchingOutputs store
      (requestOf userId vargs specOp resolved))).length
  · simp only [if_pos hMany]
    rfl
  · simp only [if_neg hMany, bind, Except.bind, reviewUtxoOutputs_validated]

/-
  A review is the same if the rows that are spent are alike, and the total counts them: they do
  not fill a page, or every candidate is spent and stays.
-/
structure ReviewAlike
  (services : ListingServices β) (store : ListingStore) (vargs : ValidListOutputsArgs)
  (release : Bool) (rows : List TableOutput) : Prop where
  spent : RowsAlike store vargs false (spentRows services store rows)
  total : (spentRows services store rows).length < vargs.limit ∨ (release = false ∧
        (spentRows services store rows).length = rows.length)

theorem sameAnswer_review (hCont : WalletContent store) (hReview : IsReview specOp) {basketId : Nat}
  (hBasket : resolved.basketId = some basketId)
  (hCan : CanMatch store (requestOf userId vargs specOp resolved))
  (hLive : LiveTags store (requestOf userId vargs specOp resolved))
  (hAlike : ReviewAlike services store vargs (resolved.specOpTags.contains "release")
      (matchingOutputs store (requestOf userId vargs specOp resolved))) :
  SameAnswer (listResolved services store userId vargs specOp
      resolved (store.findTagIds userId resolved.tags))
    (Idb.listResolved services store userId vargs specOp
      resolved (store.findTagIds userId resolved.tags)) := by
  rw [knex_review hCont hReview hCan, idb_review hCont hReview hBasket hCan hLive]
  split
  · exact of_error _
  · cases hOk :
        reviewUtxoOutputs services store userId (reviewRows store userId vargs specOp resolved)
          (resolved.specOpTags.contains "release") with
    | error error => exact of_error error
    | ok answer =>
      rcases answer with ⟨outputs, reviewed⟩
      rcases review_eq_ok hOk with ⟨hOuts, hLabels, hSame⟩
      unfold reviewRows at hOuts
      rw [spentRows_orderRows] at hOuts
      have hLen : outputs.length = (spentRows services store
              (matchingOutputs store (requestOf userId vargs specOp resolved))).length := by
        rw [hOuts, length_map, length_orderRows]
      have hRows : RowsAlike reviewed vargs false outputs := by
        apply rowsAlike_of_labels hLabels _ hAlike.spent
        intro row hRow
        rw [hOuts] at hRow
        rcases List.mem_map.mp hRow with ⟨other, hOther, rfl⟩
        exact ⟨other, mem_orderRows.mp hOther, rfl, rfl⟩
      have hTotal : resolveKnexListTotal outputs.length vargs.limit 0
              (baseQuery reviewed userId resolved.basketId false specOp.managedChangeOnly
                (store.findTagIds userId resolved.tags) vargs.tagQueryModeAll).length =
            outputs.length := by
        unfold resolveKnexListTotal inferShortPageTotal
        rcases hAlike.total with hShort | ⟨hKept, hAll⟩
        · rw [if_neg (by omega), if_neg (by omega), Nat.zero_add]
          rfl
        · have hQuery : baseQuery store userId resolved.basketId false specOp.managedChangeOnly
                  (store.findTagIds userId resolved.tags) vargs.tagQueryModeAll =
                matchingOutputs store (requestOf userId vargs specOp resolved) :=
            baseQuery_eq_matching hCont hCan
          rw [hSame hKept, hQuery, ← hAll, ← hLen]
          split
          · rfl
          · rw [if_neg (by omega), Nat.zero_add]
            rfl
      have hShown : outputs.map (shownRow false) = outputs := List.map_id outputs
      have hOutsAlike := sameOutputs_of_rowsAlike hRows
      rw [hShown] at hOutsAlike
      simp only [Except.bind, hTotal]
      exact sameAnswer_listing rfl hOutsAlike

-- Operations on tags

variable {β : Type} {services : ListingServices β} {store : ListingStore} {userId : Nat}

theorem findOutputs_reads (hCont : WalletContent store) {matchesPartial : TableOutput → Bool}
  (hUser : ∀ output, matchesPartial output = true → output.userId = userId)
  (txStatus : List TransactionStatus) (noScript : Bool) :
  (Idb.reads store userId).findOutputs matchesPartial txStatus noScript =
    (reads store).findOutputs matchesPartial txStatus
      noScript := by
  unfold Idb.reads reads findOutputs Idb.scriptRows Idb.filterOutputs
  simp only [if_true, drop_zero, isEmpty_nil, Bool.true_or, Bool.and_true, orderRows,
    Bool.false_eq_true, if_false]
  congr 1
  apply filter_congr
  intro output hOut
  cases hPartial : matchesPartial output with
  | false => rfl
  | true => rw [← hUser output hPartial, eligible_iff_joinsStatus hCont hOut]

theorem basketPrefixRows_reads (hCont : WalletContent store) (space : String) (noScript : Bool) :
  basketPrefixRows (Idb.reads store userId) store userId space noScript =
    basketPrefixRows (reads store) store userId space
      noScript := by
  have hUnspent : ∀ basketId, (Idb.reads store userId).findOutputs (fun row =>
            row.userId == userId && row.basketId == some basketId && row.spendable)
          LISTED_OUTPUT_TX_STATUSES noScript =
        (reads store).findOutputs (fun row =>
            row.userId == userId && row.basketId == some basketId && row.spendable)
          LISTED_OUTPUT_TX_STATUSES noScript := by
    intro basketId
    apply findOutputs_reads hCont
    intro output hOut
    simp only [Bool.and_eq_true, beq_iff_eq] at hOut
    exact hOut.1.1
  have hReserved : ∀ transactionId, (Idb.reads store userId).findOutputs (fun row =>
            row.userId == userId && row.spentBy == some transactionId)
          LISTED_OUTPUT_TX_STATUSES noScript =
        (reads store).findOutputs (fun row =>
            row.userId == userId && row.spentBy == some transactionId)
          LISTED_OUTPUT_TX_STATUSES noScript := by
    intro transactionId
    apply findOutputs_reads hCont
    intro output hOut
    simp only [Bool.and_eq_true, beq_iff_eq] at hOut
    exact hOut.1
  unfold basketPrefixRows
  simp only [hUnspent, hReserved]

theorem sameOutput_prefix (vargs : ValidListOutputsArgs) (row : TableOutput) :
  SameWalletOutput (hydrateBasketPrefixOutput (reads store) store vargs row)
    (hydrateBasketPrefixOutput (Idb.reads store userId) store vargs row) := by
  constructor
  case labels =>
    unfold hydrateBasketPrefixOutput
    cases vargs.includeLabels with
    | false => trivial
    | true => exact fun name => mem_knex_labels
  case tags =>
    unfold hydrateBasketPrefixOutput
    cases vargs.includeTags with
    | false => trivial
    | true => exact fun name => mem_knex_tags
  all_goals rfl

theorem sameAnswer_changeParams (specOpTags : List String) :
  SameAnswer (setWalletChangeParams services store userId specOpTags)
    (setWalletChangeParams services store userId specOpTags) := by
  unfold setWalletChangeParams
  split
  · split
    · split
      · exact ⟨rfl, List.Forall₂.nil, rfl⟩
      · exact of_error _
      · exact of_error _
    · exact of_error _
  · exact of_error _

theorem sameAnswer_resultFromTags
  (hCont : WalletContent store) (vargs : ValidListOutputsArgs) (specOpTags : List String)
  (operation : TagOperation) :
  SameAnswer (resultFromTags services (reads store) store userId vargs specOpTags operation)
    (resultFromTags services (Idb.reads store userId) store
      userId vargs specOpTags operation) := by
  cases operation with
  | setWalletChangeParams => exact sameAnswer_changeParams specOpTags
  | basketPrefixOutputs =>
    unfold resultFromTags listBasketPrefixOutputs
    cases specOpTags.head?.filter (· ≠ "") with
    | none => exact of_error _
    | some space =>
      simp only [basketPrefixRows_reads hCont]
      split
      · exact of_error _
      · apply sameAnswer_listing rfl
        rw [forall₂_map_left_iff, forall₂_map_right_iff, forall₂_same]
        intro row _
        exact sameOutput_prefix vargs row

end TsStack.Wallet
