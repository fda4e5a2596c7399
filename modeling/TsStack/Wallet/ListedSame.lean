import TsStack.Wallet.ListedAnswers

/-
  When two listings are the same.

  Outputs are compared in their order and field by field,
  labels and tags as sets.  Scripts differ where one storage
  has a script that cannot be read again from its raw
  transaction, labels where two transactions share a txid.
-/

-- Answers

open List Option

namespace TsStack.Wallet

open Idb Knex ListingStore

variable {β : Type}

def SameNames : Option (List String) → Option (List String) → Prop
| none, none => True
| some first, some second => ∀ name, name ∈ first ↔ name ∈ second
| _, _ => False

structure SameWalletOutput (first second : WalletOutput) : Prop where
  satoshis : first.satoshis = second.satoshis
  spendable : first.spendable = second.spendable
  outpoint : first.outpoint = second.outpoint
  customInstructions : first.customInstructions = second.customInstructions
  labels : SameNames first.labels second.labels
  tags : SameNames first.tags second.tags
  lockingScript : first.lockingScript = second.lockingScript

structure SameResult (first second : ListOutputsResult β) : Prop where
  totalOutputs : first.totalOutputs = second.totalOutputs
  outputs : List.Forall₂ SameWalletOutput first.outputs second.outputs
  beef : first.beef = second.beef

def SameAnswer :
  Except ListingError (ListOutputsResult β) → Except ListingError (ListOutputsResult β) → Prop
| .ok first, .ok second => SameResult first second
| .error first, .error second => first = second
| _, _ => False

theorem SameAnswer.of_error (error : ListingError) : @SameAnswer β (.error error) (.error error) :=
  rfl

variable {services : ListingServices β} {vargs : ValidListOutputsArgs}

theorem listingResult_eq_ok_iff
  {total : Int} {rows : List TableOutput} {hydrated : List WalletOutput}
  {result : ListOutputsResult β} : listingResult services vargs total rows hydrated = .ok result ↔
    ∃ beef, mergeTransactions services vargs rows = .ok beef ∧ result =
        { totalOutputs := total
          outputs := hydrated
          beef :=
            if vargs.includeTransactions then some beef
            else none } := by
  unfold listingResult
  cases mergeTransactions services vargs rows with
  | error error =>
    constructor
    · intro hOk
      cases hOk
    · rintro ⟨beef, hMerged, -⟩
      cases hMerged
  | ok beef =>
    constructor
    · intro hOk
      cases hOk
      exact ⟨beef, rfl, rfl⟩
    · rintro ⟨other, hMerged, rfl⟩
      cases hMerged
      rfl

theorem mergeTransactions_map
  {read : TableOutput → TableOutput} (hRead : ∀ row, (read row).txid = row.txid)
  (rows : List TableOutput) :
  mergeTransactions services vargs (rows.map read) = mergeTransactions services vargs rows := by
  unfold mergeTransactions
  rw [foldlM_map]
  have hStep : (fun beef output => mergeTransaction services vargs (read output) beef) =
        fun beef output => mergeTransaction services vargs output beef := by
    funext beef output
    unfold mergeTransaction
    rw [hRead]
  rw [hStep]

theorem sameAnswer_listing
  {total : Int} {first second : List TableOutput} {hydrated others : List WalletOutput}
  (hMerged : mergeTransactions services vargs first = mergeTransactions services vargs second)
  (hSame : List.Forall₂ SameWalletOutput hydrated others) :
  SameAnswer (listingResult services vargs total first hydrated)
    (listingResult services vargs total second others) := by
  unfold listingResult
  rw [hMerged]
  cases mergeTransactions services vargs second with
  | error error => exact SameAnswer.of_error error
  | ok beef => exact ⟨rfl, hSame, rfl⟩

-- Scripts

variable {store : ListingStore} {output : TableOutput}

theorem validScript_with {txid : String} {offset length : Nat}
  (hLocation : scriptLocation output = some (txid, offset, length)) (script : Option (List UInt8)) :
  store.validScript { output with lockingScript := script } =
    if script.map (·.length) = some length then script
    else (store.rawTxSlice txid offset length).or script := by
  have hSame : scriptLocation { output with lockingScript := script } =
    some (txid, offset, length) := hLocation
  unfold validScript
  rw [hSame]

theorem validScript_of_none
  (hLocation : scriptLocation output = none) (script : Option (List UInt8)) :
  store.validScript { output with lockingScript := script } = script := by
  have hSame : scriptLocation { output with lockingScript := script } = none :=
    hLocation
  unfold validScript
  rw [hSame]

theorem validateOutputScript_idem (store : ListingStore) (output : TableOutput) :
  store.validateOutputScript (store.validateOutputScript output) =
    store.validateOutputScript output := by
  have hScript :
      store.validScript (store.validateOutputScript output) = store.validScript output := by
    cases hLocation : scriptLocation output with
    | none => exact validScript_of_none hLocation _
    | some location =>
      rcases location with ⟨txid, offset, length⟩
      have hSelf : store.validScript output = _ := validScript_with hLocation output.lockingScript
      unfold validateOutputScript
      rw [validScript_with hLocation, hSelf]
      split
      · rfl
      · split
        · rfl
        · cases store.rawTxSlice txid offset length <;> rfl
  unfold validateOutputScript at hScript ⊢
  rw [hScript]

/-
  A script that stands in the row is what its transaction
  has there, or it is read again since its length is wrong.
-/
def ScriptRestorable (store : ListingStore) (output : TableOutput) : Prop :=
  ∀ script ∈ output.lockingScript, ∃ location ∈ ListingStore.scriptLocation output,
      ∃ read ∈ store.rawTxSlice location.1 location.2.1 location.2.2,
        read = script ∨ script.length ≠ location.2.2

instance
  (store : ListingStore) (output : TableOutput) : Decidable (ScriptRestorable store output) := by
  unfold ScriptRestorable
  infer_instance

theorem script_dropScript_iff : store.validScript output = store.validScript (dropScript output) ↔
    ScriptRestorable store output := by
  unfold ScriptRestorable
  cases hLocation : scriptLocation output with
  | none =>
    have hSelf : store.validScript output = _ := validScript_of_none hLocation output.lockingScript
    have hDropped : store.validScript (dropScript output) = none :=
      validScript_of_none hLocation none
    rw [hSelf, hDropped]
    constructor
    · intro hNone script hIn
      rw [hNone] at hIn
      cases hIn
    · intro hAll
      by_contra hSome
      rcases ne_none_iff_exists'.mp hSome with ⟨script, hScript⟩
      rcases hAll script hScript with ⟨location, hIn, -⟩
      cases hIn
  | some location =>
    rcases location with ⟨txid, offset, length⟩
    have hSelf : store.validScript output = _ := validScript_with hLocation output.lockingScript
    have hDropped :
        store.validScript (dropScript output) = store.rawTxSlice txid offset length := by
      refine (validScript_with hLocation none).trans ?_
      rw [if_neg nofun, or_none]
    rw [hSelf, hDropped]
    simp only [mem_def, some.injEq, exists_eq_left']
    cases hScript : output.lockingScript with
    | none =>
      rw [if_neg nofun, or_none]
      simp only [reduceCtorEq, false_implies, implies_true]
    | some script =>
      simp only [some.injEq, forall_eq', map_some]
      cases store.rawTxSlice txid offset length with
      | none => simp only [none_or, ite_self, reduceCtorEq, false_and, exists_false]
      | some read =>
        simp only [some.injEq, exists_eq_left', some_or]
        by_cases hLen : script.length = length
        · rw [if_pos hLen]
          simp only [some.injEq, hLen, ne_eq, not_true_eq_false, or_false]
          exact eq_comm
        · rw [if_neg hLen]
          simp only [hLen, ne_eq, not_false_eq_true, or_true]

-- Labels and tags

variable {store : ListingStore} {vargs : ValidListOutputsArgs}

theorem mem_knex_labels {transactionId : Nat} {name : String} :
  name ∈ labelsByTransactionId store transactionId ↔
    name ∈ getLabelsForTransactionId store
      transactionId := by
  unfold labelsByTransactionId getLabelsForTransactionId
  simp only [mem_flatMap, List.mem_map, mem_filter,
    Bool.and_eq_true, beq_iff_eq, Bool.not_eq_true']
  constructor
  · rintro ⟨label, hLabel, row, ⟨hRow, ⟨⟨hId, hTx⟩, hLive⟩, hLiveLabel⟩, rfl⟩
    exact ⟨row, ⟨hRow, hTx, hLive⟩, label, ⟨hLabel, hId.symm, hLiveLabel⟩, rfl⟩
  · rintro ⟨row, ⟨hRow, hTx, hLive⟩, label, ⟨hLabel, hId, hLiveLabel⟩, rfl⟩
    exact ⟨label, hLabel, row, ⟨hRow, ⟨⟨hId.symm, hTx⟩, hLive⟩, hLiveLabel⟩, rfl⟩

theorem mem_knex_tags {outputId : Nat} {name : String} :
  name ∈ tagsByOutputId store outputId ↔ name ∈ getTagsForOutputId store outputId := by
  unfold tagsByOutputId getTagsForOutputId
  simp only [mem_flatMap, List.mem_map, mem_filter,
    Bool.and_eq_true, beq_iff_eq, Bool.not_eq_true']
  constructor
  · rintro ⟨tag, hTag, row, ⟨hRow, ⟨⟨hId, hOut⟩, hLive⟩, hLiveTag⟩, rfl⟩
    exact ⟨row, ⟨hRow, hOut, hLive⟩, tag, ⟨hTag, hId.symm, hLiveTag⟩, rfl⟩
  · rintro ⟨row, ⟨hRow, hOut, hLive⟩, tag, ⟨hTag, hId, hLiveTag⟩, rfl⟩
    exact ⟨tag, hTag, row, ⟨hRow, ⟨⟨hId.symm, hOut⟩, hLive⟩, hLiveTag⟩, rfl⟩

def labelCache
  (store : ListingStore) (rows : List TableOutput) (cache : List (String × List String)) :
  List (String × List String) :=
  rows.foldl (Idb.cacheLabels store) cache

variable {rows : List TableOutput} {cache : List (String × List String)} {txid : String}
variable {labels : List String}

theorem lookup_cacheLabels (hLook : cache.lookup txid = some labels) (output : TableOutput) :
  (cacheLabels store cache output).lookup txid = some labels := by
  unfold cacheLabels
  split
  · exact hLook
  · split
    · exact hLook
    · rw [lookup_append, hLook]
      rfl

theorem lookup_labelCache (hLook : cache.lookup txid = some labels) :
  (labelCache store rows cache).lookup txid = some labels := by
  induction rows generalizing cache with
  | nil => exact hLook
  | cons row rows ih => exact ih (lookup_cacheLabels hLook row)

theorem lookup_cacheLabels_self (hTxid : output.txid.filter (· ≠ "") = some txid) :
  (cacheLabels store cache output).lookup txid = some (labelsByTxid store cache txid
        output.transactionId) := by
  unfold cacheLabels labelsByTxid
  rw [hTxid]
  cases hLook : cache.lookup txid with
  | some labels =>
    have hSome : (cache.lookup txid).isSome = true := by
      rw [hLook]
      rfl
    simp only [if_pos hSome, getD_some]
    exact hLook
  | none =>
    have hNone : ¬ (cache.lookup txid).isSome = true := by
      rw [hLook]
      exact Bool.false_ne_true
    simp only [if_neg hNone, getD_none]
    rw [lookup_append, hLook]
    simp

theorem hydrateIdbOutputs_eq
  (store : ListingStore) (vargs : ValidListOutputsArgs) (rows : List TableOutput)
  (cache : List (String × List String)) :
  hydrateIdbOutputs store vargs cache rows = rows.map (hydrateIdbWalletOutput store vargs
      (labelCache store rows cache)) := by
  induction rows generalizing cache with
  | nil => rfl
  | cons row rows ih =>
    unfold hydrateIdbOutputs
    rw [map_cons, ih]
    congr 1
    unfold hydrateIdbWalletOutput
    congr 1
    split
    · cases hTxid : row.txid.filter (· ≠ "") with
      | none => rfl
      | some txid =>
        have hKept : (labelCache store rows (cacheLabels store cache row)).lookup txid =
              some (labelsByTxid store cache txid row.transactionId) :=
          lookup_labelCache (lookup_cacheLabels_self hTxid)
        change (labelCache store (row :: rows) cache).lookup txid = _ at hKept
        simp only [map_some]
        congr 1
        conv_rhs => unfold labelsByTxid
        rw [hKept]
        rfl
    · rfl

theorem labels_of_lookup (hLook : (labelCache store rows cache).lookup txid = some labels) :
  cache.lookup txid = some labels ∨ ∃ row ∈ rows,
      row.txid = some txid ∧ labels = getLabelsForTransactionId store
            row.transactionId := by
  induction rows generalizing cache with
  | nil => exact .inl hLook
  | cons row rows ih =>
    rcases ih hLook with hKept | ⟨other, hIn, hOther⟩
    · unfold cacheLabels at hKept
      split at hKept
      · exact .inl hKept
      · rename_i own hOwn
        split at hKept
        · exact .inl hKept
        · rw [lookup_append] at hKept
          cases hPre : cache.lookup txid with
          | some before =>
            rw [hPre] at hKept
            exact .inl hKept
          | none =>
            rw [hPre, none_or, lookup_cons] at hKept
            split at hKept
            · rename_i hSame
              have hTxid : txid = own := beq_iff_eq.mp hSame
              cases hKept
              refine .inr ⟨row, mem_cons_self, ?_, rfl⟩
              rw [hTxid]
              exact (filter_eq_some_iff.mp hOwn).1
            · cases hKept
    · exact .inr ⟨other, mem_cons_of_mem row hIn, hOther⟩

-- Rows that are shown

def SameLabels (store : ListingStore) (first second : TableOutput) : Prop :=
  ∀ name, name ∈ Idb.getLabelsForTransactionId store first.transactionId ↔
      name ∈ Idb.getLabelsForTransactionId store second.transactionId

/-
  The rows that are shown have a txid, the scripts of those that are read without them can be read
  again, and outputs of one txid have the same labels.
-/
structure RowsAlike (store : ListingStore) (vargs : ValidListOutputsArgs) (dropped : Bool)
  (rows : List TableOutput) : Prop where
  txid : ∀ row ∈ rows, row.txid.isSome = true
  scripts :
    vargs.includeLockingScripts = true → dropped = true → ∀ row ∈ rows, ScriptRestorable store row
  labelled : vargs.includeLabels = true → ∀ row ∈ rows, row.txid ≠ some ""
  labels : vargs.includeLabels = true → ∀ row ∈ rows, ∀ other ∈ rows,
        row.txid = other.txid → SameLabels store row other

variable {store : ListingStore} {vargs : ValidListOutputsArgs} {rows : List TableOutput}

/- The row as the second storage hydrates it. -/
def shownRow (dropped : Bool) (row : TableOutput) : TableOutput :=
  { row with
    lockingScript := if dropped then none else row.lockingScript }

variable {row : TableOutput}

theorem exists_labels (dropped : Bool) (hRow : row ∈ rows) (hTxid : row.txid = some txid) :
  ∃ other ∈ rows, other.txid = some txid ∧ labelsByTxid store
          (labelCache store (rows.map (shownRow dropped)) []) txid row.transactionId =
        getLabelsForTransactionId store
          other.transactionId := by
  unfold labelsByTxid
  cases hLook : (labelCache store (rows.map (shownRow dropped)) []).lookup txid with
  | none => exact ⟨row, hRow, hTxid, rfl⟩
  | some labels =>
    rcases labels_of_lookup hLook with hNone | hFound
    · cases hNone
    · rcases hFound with ⟨shown, hShown, hOwn, hLabels⟩
      rcases List.mem_map.mp hShown with ⟨other, hOther, rfl⟩
      refine ⟨other, hOther, hOwn, ?_⟩
      rw [getD_some, hLabels]
      rfl

/- The row as the first and as the second storage shows it. -/
def idbShown
  (store : ListingStore) (vargs : ValidListOutputsArgs) (dropped : Bool) (rows : List TableOutput)
  (row : TableOutput) : WalletOutput :=
  Idb.hydrateIdbWalletOutput store vargs (labelCache store (rows.map (shownRow dropped)) [])
    (shownRow dropped row)

theorem hydrateIdbOutputs_shown
  (store : ListingStore) (vargs : ValidListOutputsArgs) (dropped : Bool) (rows : List TableOutput) :
  hydrateIdbOutputs store vargs [] (rows.map (shownRow dropped)) =
    rows.map (idbShown store vargs dropped rows) := by
  rw [hydrateIdbOutputs_eq, List.map_map]
  rfl

theorem outpointText_of_isSome (hTxid : row.txid.isSome = true) (first second : String) :
  outpointText first row = outpointText second row := by
  unfold outpointText
  rcases isSome_iff_exists.mp hTxid with ⟨txid, hSome⟩
  rw [hSome]
  rfl

variable {dropped : Bool}

theorem sameOutput_of_rowsAlike (hAlike : RowsAlike store vargs dropped rows) (hRow : row ∈ rows) :
  SameWalletOutput (hydrateKnexWalletOutput store vargs row)
    (idbShown store vargs dropped rows row) := by
  have hTxid := hAlike.txid row hRow
  have hLabels : SameNames (hydrateKnexWalletOutput store vargs row).labels
        (idbShown store vargs dropped rows row).labels := by
    unfold hydrateKnexWalletOutput idbShown hydrateIdbWalletOutput
    simp only
    cases hInclude : vargs.includeLabels with
    | false => trivial
    | true =>
      rcases isSome_iff_exists.mp hTxid with ⟨txid, hOwn⟩
      have hNotEmpty : txid ≠ "" := by
        intro hEmpty
        apply hAlike.labelled hInclude row hRow
        rw [hOwn, hEmpty]
      rcases exists_labels dropped hRow hOwn with ⟨other, hOther, hOtherTxid, hCached⟩
      have hFiltered : (shownRow dropped row).txid.filter (· ≠ "") = some txid := by
        change row.txid.filter (· ≠ "") = some txid
        rw [hOwn, filter_some, if_pos (decide_eq_true hNotEmpty)]
      rw [if_pos rfl, if_pos rfl, hFiltered]
      change ∀ name, name ∈ labelsByTransactionId store row.transactionId ↔
        name ∈ labelsByTxid store _ txid row.transactionId
      intro name
      rw [hCached, mem_knex_labels]
      exact hAlike.labels hInclude row hRow other hOther (hOwn.trans hOtherTxid.symm) name
  have hTags : SameNames (hydrateKnexWalletOutput store vargs row).tags
        (idbShown store vargs dropped rows row).tags := by
    unfold hydrateKnexWalletOutput idbShown hydrateIdbWalletOutput
    simp only
    cases vargs.includeTags with
    | false => trivial
    | true => exact fun name => mem_knex_tags
  have hScript : (hydrateKnexWalletOutput store vargs row).lockingScript =
        (idbShown store vargs dropped rows row).lockingScript := by
    unfold hydrateKnexWalletOutput idbShown hydrateIdbWalletOutput
    simp only
    cases hInclude : vargs.includeLockingScripts with
    | false => rfl
    | true =>
      cases dropped with
      | false => rfl
      | true => exact script_dropScript_iff.mpr (hAlike.scripts hInclude rfl row hRow)
  exact ⟨rfl, rfl, outpointText_of_isSome hTxid _ _, rfl, hLabels, hTags, hScript⟩

theorem sameOutputs_of_rowsAlike (hAlike : RowsAlike store vargs dropped rows) :
  List.Forall₂ SameWalletOutput (rows.map (hydrateKnexWalletOutput store vargs))
    (hydrateIdbOutputs store vargs [] (rows.map (shownRow dropped))) := by
  rw [hydrateIdbOutputs_shown, forall₂_map_left_iff,
    forall₂_map_right_iff, forall₂_same]
  intro row hRow
  exact sameOutput_of_rowsAlike hAlike hRow

-- Rows that are shown the same

theorem exists_lookup_labelCache {cache : List (String × List String)} (hRow : row ∈ rows)
  (hTxid : row.txid.filter (· ≠ "") = some txid) :
  ∃ labels, (labelCache store rows cache).lookup txid = some labels := by
  induction rows generalizing cache with
  | nil => cases hRow
  | cons first rest ih =>
    rcases mem_cons.mp hRow with rfl | hRest
    · have hKept : (labelCache store rest (cacheLabels store cache row)).lookup txid = _ :=
        lookup_labelCache (lookup_cacheLabels_self hTxid)
      exact ⟨_, hKept⟩
    · exact ih hRest

theorem isSome_of_outpointText (hSame : outpointText "null" row = outpointText "undefined" row) :
  row.txid.isSome = true := by
  cases hTxid : row.txid with
  | some txid => rfl
  | none =>
    unfold outpointText at hSame
    rw [hTxid] at hSame
    have hLen := congrArg String.length hSame
    simp only [getD_none, String.length_append] at hLen
    have hNull : "null".length = 4 := rfl
    have hUndefined : "undefined".length = 9 := rfl
    omega

structure RowShown
  (store : ListingStore) (vargs : ValidListOutputsArgs) (dropped : Bool) (rows : List TableOutput)
  (row : TableOutput) : Prop where
  txid : row.txid.isSome = true
  script : vargs.includeLockingScripts = true → dropped = true → ScriptRestorable store row
  labelled : vargs.includeLabels = true → row.txid ≠ some ""
  labels : vargs.includeLabels = true → ∀ txid, row.txid = some txid →
        ∀ name, name ∈ Idb.getLabelsForTransactionId store row.transactionId ↔
            name ∈ ((labelCache store (rows.map (shownRow dropped)) []).lookup txid).getD []

theorem rowShown_of_sameOutput (hRow : row ∈ rows)
  (hSame : SameWalletOutput (hydrateKnexWalletOutput store vargs row)
      (idbShown store vargs dropped rows row)) :
  RowShown store vargs dropped rows row := by
  have hTxid : row.txid.isSome = true := isSome_of_outpointText hSame.outpoint
  have hLabelled : vargs.includeLabels = true → row.txid ≠ some "" := by
    intro hInclude hEmpty
    have hLabels := hSame.labels
    unfold hydrateKnexWalletOutput idbShown hydrateIdbWalletOutput at hLabels
    have hNone : (shownRow dropped row).txid.filter (· ≠ "") = none := by
      change row.txid.filter (· ≠ "") = none
      rw [hEmpty]
      rfl
    simp only [hInclude, if_true, hNone, map_none] at hLabels
    exact hLabels
  refine ⟨hTxid, ?_, hLabelled, ?_⟩
  · intro hInclude hDropped
    have hScript := hSame.lockingScript
    unfold hydrateKnexWalletOutput idbShown hydrateIdbWalletOutput at hScript
    simp only [hInclude, if_true, hDropped] at hScript
    exact script_dropScript_iff.mp hScript
  · intro hInclude txid hOwn
    have hNotEmpty : txid ≠ "" := by
      intro hEmpty
      apply hLabelled hInclude
      rw [hOwn, hEmpty]
    have hFiltered : (shownRow dropped row).txid.filter (· ≠ "") = some txid := by
      change row.txid.filter (· ≠ "") = some txid
      rw [hOwn, filter_some, if_pos (decide_eq_true hNotEmpty)]
    have hLabels := hSame.labels
    unfold hydrateKnexWalletOutput idbShown hydrateIdbWalletOutput at hLabels
    simp only [hInclude, if_true, hFiltered, map_some] at hLabels
    have hIn : shownRow dropped row ∈ rows.map (shownRow dropped) := List.mem_map_of_mem hRow
    have hCached : ∃ kept, (labelCache store (rows.map (shownRow dropped))
          []).lookup txid = some kept :=
      exists_lookup_labelCache hIn hFiltered
    rcases hCached with ⟨kept, hKept⟩
    intro name
    rw [← mem_knex_labels, hKept]
    unfold labelsByTxid at hLabels
    rw [hKept] at hLabels
    exact hLabels name

theorem rowsAlike_of_sameOutputs
  (hSame : List.Forall₂ SameWalletOutput (rows.map (hydrateKnexWalletOutput store vargs))
      (hydrateIdbOutputs store vargs [] (rows.map (shownRow dropped)))) :
  RowsAlike store vargs dropped rows := by
  rw [hydrateIdbOutputs_shown, forall₂_map_left_iff,
    forall₂_map_right_iff, forall₂_same] at hSame
  have hShown : ∀ row ∈ rows, RowShown store vargs dropped rows row :=
    fun row hRow => rowShown_of_sameOutput hRow (hSame row hRow)
  refine ⟨fun row hRow => (hShown row hRow).txid,
    fun hInclude hDropped row hRow => (hShown row hRow).script hInclude hDropped,
    fun hInclude row hRow => (hShown row hRow).labelled hInclude, ?_⟩
  intro hInclude row hRow other hOther hTxid name
  rcases isSome_iff_exists.mp (hShown row hRow).txid with ⟨txid, hOwn⟩
  exact ((hShown row hRow).labels hInclude txid hOwn name).trans
    ((hShown other hOther).labels hInclude txid (hTxid.symm.trans hOwn) name).symm

end TsStack.Wallet
