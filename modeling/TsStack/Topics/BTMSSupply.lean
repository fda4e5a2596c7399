import TsStack.Topics.BTMSAdmission

/-
  Runs of transactions over the topic of
  `BTMSTopicManager.ts`: what is admitted of an asset comes
  from the output that issued it.
-/

-- Submissions

open List Option

namespace TsStack

open CoinLedger

namespace BTMSTopicManager

variable {functions : PushDropFunctions}

section Submissions

variable
    {state : TopicState} {tx : TokenTransaction} {beef : List SourceTransaction}
    {previousCoins : List Nat}

variable {coin : Nat}

section

variable (hSubmission : Submission (resolveSource beef) state tx previousCoins)

include hSubmission

theorem previousUTXO_output (hCoin : coin ∈ previousCoins) :
  (previousUTXO beef tx coin).map (·.output) = tx.sourceOutput (resolveSource beef) coin := by
  rcases (hSubmission.mem_coins coin).mp hCoin with ⟨input, output, hInput, hOut, hOutpoint⟩
  unfold previousUTXO TokenTransaction.sourceOutput
  rw [hInput]
  change Option.map _ (resolveSource beef input >>= _) = (resolveSource beef input >>= _)
  cases hSrc : resolveSource beef input with
  | none => rfl
  | some source =>
    rcases hSubmission.sources coin hCoin input output source hInput hOut hOutpoint hSrc with
      ⟨hTxid, hScript⟩
    change Option.map _ (source.outputs[input.sourceOutputIndex]? >>= _) =
      (source.outputs[input.sourceOutputIndex]? >>= _)
    rw [hScript, hTxid]
    rfl

theorem collectPreviousUTXOs_output : (collectPreviousUTXOs beef tx previousCoins).map (·.output) =
    previousCoins.filterMap (tx.sourceOutput (resolveSource beef)) := by
  unfold collectPreviousUTXOs
  rw [map_filterMap]
  apply filterMap_congr
  exact fun coin hCoin => previousUTXO_output hSubmission hCoin

end

variable {asset : JsString}

theorem allowance_spec (hSubmission : Submission (resolveSource beef) state tx previousCoins)
  {allowance : AssetAllowance} (hAllowance :
    (collectAssetAllowances functions (collectPreviousUTXOs beef tx previousCoins)).lookup asset =
      some allowance) :
  allowance.amount ≤ total (coins functions (state.unspent.filter fun output =>
            tx.spends output.outpoint))
        asset ∧
    ∃ output ∈ state.unspent, ∃ token, tokenOf functions output.script = some token ∧
        canonicalAssetId token.assetIdField output.outpoint = asset ∧
        token.metadata = allowance.metadata := by
  rcases collectAssetAllowances_backed _ asset allowance hAllowance with
    ⟨hAmount, output, hOut, hToken⟩
  rw [collectPreviousUTXOs_output hSubmission] at hAmount hOut
  constructor
  · exact Nat.le_trans hAmount (hSubmission.total_sourceOutputs_le (coinOf functions) asset)
  · rcases mem_filterMap.mp hOut with ⟨coin, hCoin, hSrc⟩
    exact ⟨output, (hSubmission.sourceOutput_spec hCoin hSrc).1, hToken⟩

def admittedOutputs
  (functions : PushDropFunctions) (tx : TokenTransaction) (beef : List SourceTransaction)
  (previousCoins : List Nat) : List TopicOutput :=
  tx.admitOutputs (identifyAdmissibleOutputs functions (.ok (tx, beef))
      previousCoins).outputsToAdmit

theorem admittedOutputs_admission
  (functions : PushDropFunctions) (tx : TokenTransaction) (beef : List SourceTransaction)
  (previousCoins : List Nat) : Admission functions tx (collectAssetAllowances functions
      (collectPreviousUTXOs beef tx previousCoins))
    (tx.outputs.zipIdx.foldl (admitOutput functions (collectAssetAllowances functions
          (collectPreviousUTXOs beef tx previousCoins)))
      {}) :=
  collectAdmissibleOutputs_admission tx _

section

variable
    (hSubmission : Submission (resolveSource beef) state tx previousCoins)
    (hForeign : IsForeign tx asset)

include hSubmission hForeign

theorem total_admittedOutputs_le :
  total (coins functions (admittedOutputs functions tx beef previousCoins)) asset ≤
    total (coins functions (state.unspent.filter fun output => tx.spends output.outpoint))
      asset := by
  have hAdmission := admittedOutputs_admission functions tx beef previousCoins
  cases hLook : (collectAssetAllowances functions
    (collectPreviousUTXOs beef tx previousCoins)).lookup asset with
  | some allowance =>
    exact Nat.le_trans (hAdmission.within asset hForeign allowance hLook)
      (allowance_spec hSubmission hLook).1
  | none =>
    have hNone :
        total (coins functions (admittedOutputs functions tx beef previousCoins)) asset = 0 := by
      apply total_eq_zero
      intro coin hCoin hAsset
      unfold coins at hCoin
      rcases mem_filterMap.mp hCoin with ⟨output, hOut, hRead⟩
      rcases hAdmission.admitted output hOut with ⟨token, hToken, hKind⟩
      rw [coinOf_eq_some hToken] at hRead
      rw [← some.inj hRead] at hAsset
      dsimp only at hAsset
      rcases hKind with hIssue | ⟨hField, allowance, hAllowance, _⟩
      · rw [hIssue, canonicalAssetId_issueField] at hAsset
        have hTxid := (mem_admitOutputs.mp hOut).1
        apply hForeign output.outpoint.2
        rw [← hAsset, ← hTxid]
      · rw [canonicalAssetId_of_ne hField] at hAsset
        rw [hAsset, hLook] at hAllowance
        exact nomatch hAllowance
    rw [hNone]
    exact Nat.zero_le _

theorem total_apply_le : total (coins functions (state.apply tx (identifyAdmissibleOutputs functions
            (.ok (tx, beef)) previousCoins).outputsToAdmit
          ).unspent)
      asset ≤
    total (coins functions state.unspent) asset := by
  have hSplit := state.total_unspent tx (coinOf functions) asset
  have hAdmitted :
      total (coins functions (admittedOutputs functions tx beef previousCoins)) asset ≤ _ :=
    total_admittedOutputs_le hSubmission hForeign
  unfold admittedOutputs coins at hAdmitted
  unfold TopicState.apply coins
  dsimp only
  rw [filterMap_append, total_append]
  omega

end

theorem outputContainsAsset_iff {outputsToAdmit : List Nat} {asset : JsString} :
  outputContainsAsset functions tx outputsToAdmit asset = true ↔
    ∃ admitted ∈ tx.admitOutputs outputsToAdmit, assetOf functions admitted = some asset := by
  unfold outputContainsAsset
  rw [List.any_eq_true]
  constructor
  · rintro ⟨⟨script, index⟩, hEntry, hFound⟩
    rw [Bool.and_eq_true, contains_iff_mem, decide_eq_true_iff] at hFound
    refine ⟨⟨(tx.txid, index), script⟩, ?_, hFound.2⟩
    exact mem_admitOutputs.mpr ⟨rfl, hFound.1, mem_zipIdx_iff_getElem?.mp hEntry⟩
  · rintro ⟨admitted, hAdmitted, hAsset⟩
    rcases mem_admitOutputs.mp hAdmitted with ⟨hTxid, hIdx, hScript⟩
    refine ⟨(admitted.script, admitted.outpoint.2), mem_zipIdx_iff_getElem?.mpr hScript, ?_⟩
    rw [Bool.and_eq_true, contains_iff_mem, decide_eq_true_iff, ← hTxid]
    exact ⟨hIdx, hAsset⟩

theorem previousUTXO_coinIndex
  {previous : PreviousUTXO} (hPrev : previousUTXO beef tx coin = some previous) :
  previous.coinIndex = coin := by
  unfold previousUTXO at hPrev
  rcases bind_eq_some_iff.mp hPrev with ⟨input, _, hInput⟩
  rcases bind_eq_some_iff.mp hInput with ⟨source, _, hSrc⟩
  rcases bind_eq_some_iff.mp hSrc with ⟨script, _, hScript⟩
  rw [← some.inj hScript]

theorem mem_collectRetainedCoins {outputsToAdmit : List Nat} {coin : Nat} :
  coin ∈ collectRetainedCoins functions (collectPreviousUTXOs beef tx previousCoins) tx
      outputsToAdmit ↔
    coin ∈ previousCoins ∧ ∃ previous, previousUTXO beef tx coin = some previous ∧
        isRetained functions tx outputsToAdmit previous =
          true := by
  unfold collectRetainedCoins collectPreviousUTXOs
  constructor
  · intro hCoin
    rcases List.mem_map.mp hCoin with ⟨previous, hMem, hIdx⟩
    rcases mem_filter.mp hMem with ⟨hFound, hRetained⟩
    rcases mem_filterMap.mp hFound with ⟨other, hOther, hPrev⟩
    rw [← hIdx, previousUTXO_coinIndex hPrev]
    exact ⟨hOther, previous, hPrev, hRetained⟩
  · rintro ⟨hCoin, previous, hPrev, hRetained⟩
    apply List.mem_map.mpr
    refine ⟨previous, ?_, previousUTXO_coinIndex hPrev⟩
    exact mem_filter.mpr ⟨mem_filterMap.mpr ⟨coin, hCoin, hPrev⟩, hRetained⟩

theorem mem_coinsToRetain (hSubmission : Submission (resolveSource beef) state tx previousCoins)
  (hCoin : coin ∈ previousCoins) {input : TokenInput} {output : TopicOutput}
  (hInput : tx.inputs[coin]? = some input) (hOut : output ∈ state.unspent)
  (hOutpoint : output.outpoint = input.outpoint) (hAsset : assetOf functions output = some asset) :
  coin ∈ (identifyAdmissibleOutputs functions (.ok (tx, beef)) previousCoins).coinsToRetain ↔
    (resolveSource beef input).isSome = true ∧ ∃ admitted ∈
        admittedOutputs functions tx beef previousCoins,
        assetOf functions admitted = some asset := by
  change coin ∈ collectRetainedCoins functions (collectPreviousUTXOs beef tx previousCoins) tx _ ↔ _
  rw [mem_collectRetainedCoins]
  have hPrev := previousUTXO_output hSubmission hCoin
  rw [hSubmission.sourceOutput_eq hCoin hInput hOut hOutpoint] at hPrev
  cases hSrc : resolveSource beef input with
  | none =>
    rw [hSrc, map_none, map_eq_none_iff] at hPrev
    rw [hPrev]
    constructor
    · rintro ⟨_, _, hNone, _⟩
      exact nomatch hNone
    · rintro ⟨hNone, _⟩
      exact nomatch hNone
  | some source =>
    rw [hSrc, map_some] at hPrev
    rcases map_eq_some_iff.mp hPrev with ⟨previous, hFound, hSame⟩
    have hRetained : isRetained functions tx (identifyAdmissibleOutputs functions
              (.ok (tx, beef)) previousCoins).outputsToAdmit
            previous = true ↔
          ∃ admitted ∈ admittedOutputs functions tx beef previousCoins,
            assetOf functions admitted = some asset := by
      have hPrevAsset :
          assetOf functions ⟨previous.outpoint, previous.lockingScript⟩ = some asset := by
        rw [← hAsset, ← hSame]
        rfl
      unfold isRetained
      rw [hPrevAsset]
      exact outputContainsAsset_iff
    rw [hFound]
    constructor
    · rintro ⟨_, other, hOther, hKept⟩
      rw [← some.inj hOther] at hKept
      exact ⟨rfl, hRetained.mp hKept⟩
    · rintro ⟨_, hAdmitted⟩
      exact ⟨hCoin, previous, rfl, hRetained.mpr hAdmitted⟩

end Submissions

end BTMSTopicManager

-- Runs

namespace BTMSTopicManager

inductive Run (functions : PushDropFunctions) :
  TopicState → List TopicOutput → Prop where
| empty : Run functions {} []
| submit
    {state : TopicState} {history : List TopicOutput} {tx : TokenTransaction}
    {beef : List SourceTransaction} {previousCoins : List Nat} (hRun : Run functions state history)
    (hSubmission : Submission (resolveSource beef) state tx previousCoins) :
    Run functions (state.apply tx (identifyAdmissibleOutputs functions
          (.ok (tx, beef)) previousCoins).outputsToAdmit)
      (history ++ admittedOutputs functions tx beef previousCoins)

structure RunInvariant
  (functions : PushDropFunctions) (state : TopicState) (history : List TopicOutput) : Prop where
  unspent : ∀ output ∈ state.unspent, output ∈ history
  processed : ∀ output ∈ history, output.outpoint.1 ∈ state.processed
  follows : ∀ output ∈ history, ∃ token, ∃ issue ∈ history,
      ∃ issuing, Follows functions issue output issuing token
  total_le : ∀ issue ∈ history, ∀ issuing, Issues functions issue issuing →
        total (coins functions state.unspent) (outpointText '.' issue.outpoint) ≤ issuing.amount

variable {functions : PushDropFunctions}

section Steps

variable
    {state : TopicState} {history : List TopicOutput} {tx : TokenTransaction}
    {beef : List SourceTransaction} {previousCoins : List Nat}

variable {issue : TopicOutput}

section

variable (hInvariant : RunInvariant functions state history)
include hInvariant

theorem RunInvariant.isForeign (hFresh : tx.txid ∉ state.processed)
  (hIssue : issue ∈ history) : IsForeign tx (outpointText '.' issue.outpoint) := by
  intro index hSame
  have hOutpoint := outpointText_dot_injective hSame
  have hProcessed := hInvariant.processed issue hIssue
  rw [hOutpoint] at hProcessed
  exact hFresh hProcessed

section

variable (hSubmission : Submission (resolveSource beef) state tx previousCoins)

include hSubmission

theorem RunInvariant.follows_admitted {output : TopicOutput}
  (hOut : output ∈ admittedOutputs functions tx beef previousCoins) :
  ∃ token, tokenOf functions output.script = some token ∧
      (token.assetIdField = issueField ∨ ∃ issue ∈ history, ∃ issuing,
          Follows functions issue output issuing token) := by
  have hAdmission := admittedOutputs_admission functions tx beef previousCoins
  rcases hAdmission.admitted output hOut with ⟨token, hToken, hIssue | hTransfer⟩
  · exact ⟨token, hToken, .inl hIssue⟩
  · rcases hTransfer with ⟨hField, allowance, hAllowance, hMetadata⟩
    rcases (allowance_spec hSubmission hAllowance).2 with
      ⟨carried, hCarry, carriedToken, hDec, hAsset, hSame⟩
    rcases hInvariant.follows carried (hInvariant.unspent carried hCarry) with
      ⟨other, issue, hIssue, issuing, hFoll⟩
    refine ⟨token, hToken, .inr ⟨issue, hIssue, issuing, ?_⟩⟩
    have hOther := hFoll.decoded
    rw [hDec] at hOther
    have hEq := some.inj hOther
    constructor
    case issues => exact hFoll.issues
    case decoded => exact hToken
    case asset =>
      rw [canonicalAssetId_of_ne hField, ← hAsset, hEq]
      exact hFoll.asset
    case metadata =>
      rw [← hMetadata, ← hSame, hEq]
      exact hFoll.metadata

theorem RunInvariant.eq_issue {output : TopicOutput}
  (hIssue : issue ∈ admittedOutputs functions tx beef previousCoins)
  (hOut : output ∈ state.unspent ∨ output ∈ admittedOutputs functions tx beef previousCoins)
  {token : BTMSToken} (hToken : tokenOf functions output.script = some token) (hAsset :
    canonicalAssetId token.assetIdField output.outpoint = outpointText '.' issue.outpoint) :
  output = issue := by
  have hTxid := (mem_admitOutputs.mp hIssue).1
  -- An asset of the run is not the one that is issued.
  have hNew :
      ∀ other ∈ history, outpointText '.' other.outpoint ≠ outpointText '.' issue.outpoint := by
    intro other hOther hSame
    apply hInvariant.isForeign hSubmission.fresh hOther issue.outpoint.2
    rw [hSame, ← hTxid]
  rcases hOut with hOld | hAdmitted
  · rcases hInvariant.follows output (hInvariant.unspent output hOld) with
      ⟨other, first, hFst, _, hFoll⟩
    have hOther := hFoll.decoded
    rw [hToken] at hOther
    have hFstAsset := hFoll.asset
    rw [← some.inj hOther, hAsset] at hFstAsset
    exact absurd hFstAsset.symm (hNew first hFst)
  · rcases hInvariant.follows_admitted hSubmission hAdmitted with ⟨other, hOther, hKind⟩
    rw [hToken] at hOther
    have hEq := some.inj hOther
    rcases hKind with hField | hTransfer
    · rw [hEq, hField, canonicalAssetId_issueField] at hAsset
      have hOutpoint := outpointText_dot_injective hAsset
      have hScript := (mem_admitOutputs.mp hAdmitted).2.2
      rw [hOutpoint, (mem_admitOutputs.mp hIssue).2.2] at hScript
      have hSame := some.inj hScript
      cases output
      cases issue
      dsimp only at hOutpoint hSame
      rw [hOutpoint, hSame]
    · rcases hTransfer with ⟨first, hFst, _, hFoll⟩
      have hFstAsset := hFoll.asset
      rw [← hEq, hAsset] at hFstAsset
      exact absurd hFstAsset.symm (hNew first hFst)

end

section

variable
    (hState : state.WellFormed)
    (hSubmission : Submission (resolveSource beef) state tx previousCoins)

include hState hSubmission

theorem RunInvariant.total_issue_le
  (hIssue : issue ∈ admittedOutputs functions tx beef previousCoins) {issuing : BTMSToken}
  (hIssues : Issues functions issue issuing) :
  total (coins functions (state.apply tx (identifyAdmissibleOutputs functions
            (.ok (tx, beef)) previousCoins).outputsToAdmit
          ).unspent)
      (outpointText '.' issue.outpoint) ≤
    issuing.amount := by
  have hAfter : (state.apply tx (identifyAdmissibleOutputs functions (.ok (tx, beef))
            previousCoins).outputsToAdmit).WellFormed :=
    hState.apply hSubmission.fresh (collectAdmissibleOutputs_nodup tx _)
  have hNodup : (coins functions (state.apply tx (identifyAdmissibleOutputs functions
            (.ok (tx, beef)) previousCoins).outputsToAdmit
          ).unspent).Nodup := by
    unfold coins
    apply pairwise_filterMap.mpr
    apply (pairwise_map.mp hAfter.nodup).imp
    intro output output' hApart coin hCoin coin' hCoin' hSame
    unfold coinOf at hCoin hCoin'
    rcases map_eq_some_iff.mp hCoin with ⟨_, _, rfl⟩
    rcases map_eq_some_iff.mp hCoin' with ⟨_, _, rfl⟩
    exact hApart (Coin.mk.inj hSame).1
  have hOnly : ∀ coin ∈ coins functions (state.apply tx (identifyAdmissibleOutputs functions
              (.ok (tx, beef)) previousCoins).outputsToAdmit
            ).unspent,
        coin.asset = outpointText '.' issue.outpoint → coin =
          ⟨issue.outpoint, outpointText '.' issue.outpoint, issuing.amount⟩ := by
    intro coin hCoin hAsset
    unfold coins at hCoin
    rcases mem_filterMap.mp hCoin with ⟨output, hOut, hRead⟩
    unfold coinOf at hRead
    rcases map_eq_some_iff.mp hRead with ⟨token, hToken, rfl⟩
    have hMem : output ∈ state.unspent ∨ output ∈ admittedOutputs functions tx beef
              previousCoins := by
      rcases mem_append.mp hOut with hOld | hNew
      · exact .inl (mem_of_mem_filter hOld)
      · exact .inr hNew
    have hSame := hInvariant.eq_issue hSubmission hIssue hMem hToken hAsset
    rw [hSame, hIssues.decoded] at hToken
    dsimp only at hAsset ⊢
    rw [hAsset, hSame, ← some.inj hToken]
  exact total_le_of_forall_eq hNodup hOnly

theorem RunInvariant.submit :
  RunInvariant functions (state.apply tx (identifyAdmissibleOutputs functions
        (.ok (tx, beef)) previousCoins).outputsToAdmit)
    (history ++ admittedOutputs functions tx beef previousCoins) := by
  constructor
  case unspent =>
    intro output hOut
    apply mem_append.mpr
    rcases mem_append.mp hOut with hOld | hNew
    · exact .inl (hInvariant.unspent output (mem_of_mem_filter hOld))
    · exact .inr hNew
  case processed =>
    intro output hOut
    rcases mem_append.mp hOut with hOld | hNew
    · exact mem_cons_of_mem _ (hInvariant.processed output hOld)
    · rw [(mem_admitOutputs.mp hNew).1]
      exact mem_cons_self
  case follows =>
    intro output hOut
    rcases mem_append.mp hOut with hOld | hNew
    · rcases hInvariant.follows output hOld with ⟨token, issue, hIssue, hFoll⟩
      exact ⟨token, issue, mem_append_left _ hIssue, hFoll⟩
    · rcases hInvariant.follows_admitted hSubmission hNew with ⟨token, hToken, hField | hTransfer⟩
      · refine ⟨token, output, hOut, token, ?_⟩
        constructor
        case issues => exact ⟨hToken, hField⟩
        case decoded => exact hToken
        case asset => rw [hField, canonicalAssetId_issueField]
        case metadata => rfl
      · rcases hTransfer with ⟨issue, hIssue, hFoll⟩
        exact ⟨token, issue, mem_append_left _ hIssue, hFoll⟩
  case total_le =>
    intro issue hMem issuing hIssues
    rcases mem_append.mp hMem with hOld | hNew
    · apply Nat.le_trans (total_apply_le hSubmission (hInvariant.isForeign hSubmission.fresh hOld))
      exact hInvariant.total_le issue hOld issuing hIssues
    · exact hInvariant.total_issue_le hState hSubmission hNew hIssues

end

end

end Steps

section Runs

variable
    {state : TopicState} {history : List TopicOutput}

theorem Run.wellFormed (hRun : Run functions state history) : state.WellFormed := by
  induction hRun with
  | empty => exact TopicState.wellFormed_empty
  | submit _ hSubmission ih => exact ih.apply hSubmission.fresh (collectAdmissibleOutputs_nodup _ _)

theorem Run.invariant (hRun : Run functions state history) :
  RunInvariant functions state history := by
  induction hRun with
  | empty =>
    constructor
    case unspent => exact fun _ hOut => absurd hOut not_mem_nil
    case processed => exact fun _ hOut => absurd hOut not_mem_nil
    case follows => exact fun _ hOut => absurd hOut not_mem_nil
    case total_le => exact fun _ hIssue => absurd hIssue not_mem_nil
  | submit hRun hSubmission ih => exact ih.submit hRun.wellFormed hSubmission

/-
  In every run each admitted output has the asset and the metadata of an issue, no asset exceeds
  the amount of its issue, and a submission adds nothing to an asset that was issued.  A previous
  coin is retained where its source is found and an output of its asset is admitted.
-/
theorem conservation
  (functions : PushDropFunctions) {state : TopicState} {history : List TopicOutput}
  (hRun : Run functions state history) :
  (∀ output ∈ state.unspent, output ∈ history) ∧
  (∀ output ∈ history, ∃ token, ∃ issue ∈ history, ∃ issuing,
      Follows functions issue output issuing token) ∧
  (∀ issue ∈ history, ∀ issuing, Issues functions issue issuing →
      total (coins functions state.unspent) (outpointText '.' issue.outpoint) ≤ issuing.amount) ∧
  (∀ tx beef previousCoins, Submission (resolveSource beef) state tx previousCoins →
      (∀ issue ∈ history, ∀ issuing, Issues functions issue issuing → total (coins functions
                (state.apply tx (identifyAdmissibleOutputs functions (.ok (tx, beef))
                    previousCoins).outputsToAdmit).unspent)
              (outpointText '.' issue.outpoint) ≤
            total (coins functions state.unspent) (outpointText '.' issue.outpoint)) ∧
      (∀ coin ∈ previousCoins, ∀ input, tx.inputs[coin]? = some input →
        ∀ output ∈ state.unspent, output.outpoint = input.outpoint →
            (coin ∈ (identifyAdmissibleOutputs functions (.ok (tx, beef))
                previousCoins).coinsToRetain ↔
              (resolveSource beef input).isSome = true ∧
                ∃ admitted ∈ admittedOutputs functions tx beef previousCoins,
                  assetOf functions admitted = assetOf functions output))) := by
  have hInvariant := hRun.invariant
  refine ⟨hInvariant.unspent, hInvariant.follows, hInvariant.total_le, ?_⟩
  intro tx beef previousCoins hSubmission
  constructor
  · intro issue hIssue issuing _
    exact total_apply_le hSubmission (hInvariant.isForeign hSubmission.fresh hIssue)
  · intro coin hCoin input hInput output hOutput hOutpoint
    rcases hInvariant.follows output (hInvariant.unspent output hOutput) with
      ⟨token, _, _, _, hFollows⟩
    have hAsset := assetOf_eq_some hFollows.decoded
    rw [hAsset]
    exact mem_coinsToRetain hSubmission hCoin hInput hOutput hOutpoint hAsset

end Runs

def sampleFunctions : PushDropFunctions where
  toUTF8 := fun bytes => bytes.map fun byte => Char.ofNat byte.toNat
  parsePublicKey := fun text =>
    if text = toHex (2 :: List.replicate 31 0 ++ [1]) then .ok ()
    else .error (.error "Invalid point")

def sampleScript (assetId amount : String) : TokenScript :=
  let push := fun (bytes : Bytes) => (⟨bytes.length, some bytes, none⟩ : ScriptChunk)
  let text := fun (field : String) => push (field.toList.map fun char => UInt8.ofNat char.toNat)
  [push (2 :: List.replicate 31 0 ++ [1]), ⟨OP.OP_CHECKSIG, none, none⟩, text assetId, text amount,
    ⟨OP.OP_2DROP, none, none⟩]

def sampleId (byte : UInt8) : Bytes := List.replicate 32 byte

def sampleAsset : String :=
  String.ofList (outpointText '.' (sampleId 1, 0))

def issueTransaction : TokenTransaction where
  txid := sampleId 1
  inputs := []
  outputs := [sampleScript "ISSUE" "100"]

theorem conservation_issue :
  total (coins sampleFunctions (TopicState.apply {} issueTransaction
          (identifyAdmissibleOutputs sampleFunctions (.ok (issueTransaction, []))
            []).outputsToAdmit).unspent)
      (outpointText '.' (sampleId 1, 0)) ≤
    100 := by
  have hEmpty : Run sampleFunctions {} [] := .empty
  have hSubmission : Submission (resolveSource []) {} issueTransaction [] :=
    submission_of_no_inputs issueTransaction rfl
  have hLaw := (conservation sampleFunctions (hEmpty.submit hSubmission)).2.2.1
  apply hLaw ⟨(sampleId 1, 0), sampleScript "ISSUE" "100"⟩
    (by decide +kernel) ⟨issueField, 100, none⟩
  exact ⟨by decide +kernel, rfl⟩

def sourceOf (tx : TokenTransaction) : SourceTransaction :=
  ⟨tx.txid, tx.outputs⟩

/- The hundred are sixty and forty. -/
def splitTransaction : TokenTransaction where
  txid := sampleId 2
  inputs := [⟨sampleId 1, 0, some (sourceOf issueTransaction)⟩]
  outputs := [sampleScript sampleAsset "60", sampleScript sampleAsset "40"]

/- The forty are moved. -/
def moveTransaction : TokenTransaction where
  txid := sampleId 3
  inputs := [⟨sampleId 2, 1, some (sourceOf splitTransaction)⟩]
  outputs := [sampleScript sampleAsset "40"]

def joinTransaction : TokenTransaction where
  txid := sampleId 4
  inputs := [⟨sampleId 2, 0, none⟩, ⟨sampleId 3, 0, none⟩]
  outputs := [sampleScript sampleAsset "60"]

def afterTransaction
  (state : TopicState) (tx : TokenTransaction) (beef : List SourceTransaction) : TopicState :=
  state.apply tx (identifyAdmissibleOutputs sampleFunctions
      (.ok (tx, beef)) (state.previousCoins tx)).outputsToAdmit

def issuedTopic : TopicState :=
  afterTransaction {} issueTransaction []

def splitTopic : TopicState :=
  afterTransaction issuedTopic splitTransaction []

def movedTopic : TopicState :=
  afterTransaction splitTopic moveTransaction []

theorem run_movedTopic : ∃ history, Run sampleFunctions movedTopic history := by
  have hEmpty : Run sampleFunctions {} [] := .empty
  have hIssue : Submission (resolveSource []) {} issueTransaction
        (TopicState.previousCoins {} issueTransaction) :=
    submission_previousCoins (by decide +kernel) (by decide +kernel) (by decide +kernel)
  have hSplit : Submission (resolveSource []) issuedTopic
        splitTransaction (issuedTopic.previousCoins splitTransaction) :=
    submission_previousCoins (by decide +kernel) (by decide +kernel) (by decide +kernel)
  have hMove : Submission (resolveSource []) splitTopic moveTransaction
        (splitTopic.previousCoins moveTransaction) :=
    submission_previousCoins (by decide +kernel) (by decide +kernel) (by decide +kernel)
  exact ⟨_, ((hEmpty.submit hIssue).submit hSplit).submit hMove⟩

theorem unresolved_coin_not_retained :
  ¬∀ (functions : PushDropFunctions)
    (state : TopicState)
    (history : List TopicOutput),
    Run functions state history → ∀ tx beef previousCoins,
        Submission (resolveSource beef) state tx previousCoins →
          ∀ coin ∈ previousCoins, ∀ input, tx.inputs[coin]? = some input →
            ∀ output ∈ state.unspent, output.outpoint = input.outpoint →
                (coin ∈ (identifyAdmissibleOutputs functions (.ok (tx, beef))
                    previousCoins).coinsToRetain ↔
                  ∃ admitted ∈ admittedOutputs functions tx beef previousCoins,
                    assetOf functions admitted = assetOf functions output) := by
  intro hAll
  rcases run_movedTopic with ⟨history, hRun⟩
  have hSubmission :
      Submission (resolveSource [sourceOf splitTransaction]) movedTopic joinTransaction
        (movedTopic.previousCoins joinTransaction) :=
    submission_previousCoins (by decide +kernel) (by decide +kernel) (by decide +kernel)
  have hRetained := (hAll _ _ _ hRun joinTransaction
    [sourceOf splitTransaction] (movedTopic.previousCoins joinTransaction) hSubmission 1
    (by decide +kernel) ⟨sampleId 3, 0, none⟩ rfl ⟨(sampleId 3, 0), sampleScript sampleAsset "40"⟩
    (by decide +kernel) rfl).mpr
  have hAdmitted : ∃ admitted ∈ admittedOutputs sampleFunctions joinTransaction
          [sourceOf splitTransaction] (movedTopic.previousCoins joinTransaction),
        assetOf sampleFunctions admitted = assetOf sampleFunctions
            ⟨(sampleId 3, 0), sampleScript sampleAsset "40"⟩ :=
    ⟨⟨(sampleId 4, 0), sampleScript sampleAsset "60"⟩, by decide +kernel, by decide +kernel⟩
  have hMem := hRetained hAdmitted
  revert hMem
  decide +kernel

end BTMSTopicManager

end TsStack
