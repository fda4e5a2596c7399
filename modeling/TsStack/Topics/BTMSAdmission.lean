import TsStack.Topics.BTMS

/-
  What `BTMSTopicManager.ts` admits of one transaction: the
  allowances are in the previous coins, and the outputs of
  an asset are within its allowance.
-/

-- Coins and Issues

open List

namespace TsStack

open CoinLedger

namespace BTMSTopicManager

variable (functions : PushDropFunctions)

def coinOf (output : TopicOutput) : Option (Coin TokenOutpoint JsString) :=
  (tokenOf functions output.script).map fun token =>
    ⟨output.outpoint, canonicalAssetId token.assetIdField output.outpoint, token.amount⟩

def coins (outputs : List TopicOutput) :
  List (Coin TokenOutpoint JsString) :=
  outputs.filterMap (coinOf functions)

structure Issues (issue : TopicOutput) (issuing : BTMSToken) : Prop where
  decoded : tokenOf functions issue.script = some issuing
  field : issuing.assetIdField = issueField

structure Follows (issue output : TopicOutput) (issuing token : BTMSToken) : Prop where
  issues : Issues functions issue issuing
  decoded : tokenOf functions output.script = some token
  asset : canonicalAssetId token.assetIdField output.outpoint = outpointText '.' issue.outpoint
  metadata : token.metadata = issuing.metadata

variable {functions : PushDropFunctions}

theorem canonicalAssetId_of_ne
  {assetIdField : JsString} (hField : assetIdField ≠ issueField) (outpoint : TokenOutpoint) :
  canonicalAssetId assetIdField outpoint = assetIdField := by
  unfold canonicalAssetId
  rw [if_neg hField]

theorem canonicalAssetId_issueField (outpoint : TokenOutpoint) :
  canonicalAssetId issueField outpoint = outpointText '.' outpoint := by
  unfold canonicalAssetId
  rw [if_pos rfl]

theorem outpointText_dot_injective : Function.Injective (outpointText '.') :=
  outpointText_injective (by decide)

variable
    {output : TopicOutput} {token : BTMSToken}

theorem coinOf_eq_some (hToken : tokenOf functions output.script = some token) :
  coinOf functions output = some ⟨output.outpoint,
      canonicalAssetId token.assetIdField output.outpoint, token.amount⟩ := by
  unfold coinOf
  rw [hToken, Option.map_some]

theorem assetOf_eq_some (hToken : tokenOf functions output.script = some token) :
  assetOf functions output = some (canonicalAssetId token.assetIdField output.outpoint) := by
  unfold assetOf
  rw [hToken, Option.map_some]

@[simp] theorem coins_append (outputs others : List TopicOutput) :
  coins functions (outputs ++ others) = coins functions outputs ++ coins functions others :=
  filterMap_append

theorem coins_singleton (hToken : tokenOf functions output.script = some token) :
  coins functions [output] =
    [⟨output.outpoint, canonicalAssetId token.assetIdField output.outpoint, token.amount⟩] := by
  unfold coins
  rw [filterMap_cons, coinOf_eq_some hToken]
  rfl

theorem addTokenAmounts_eq_some
  {left right sum : Nat} (hSum : addTokenAmounts left right = some sum) : sum = left + right := by
  unfold addTokenAmounts at hSum
  dsimp only at hSum
  split_ifs at hSum
  exact (Option.some.inj hSum).symm

end BTMSTopicManager

-- Allowances

namespace BTMSTopicManager

variable (functions : PushDropFunctions)

def PreviousUTXO.output (previous : PreviousUTXO) : TopicOutput :=
  ⟨previous.outpoint, previous.lockingScript⟩

def Backed (allowances : Allowances) (outputs : List TopicOutput) : Prop :=
  ∀ asset allowance, allowances.lookup asset = some allowance →
      allowance.amount ≤ total (coins functions outputs) asset ∧
        ∃ output ∈ outputs, ∃ token, tokenOf functions output.script = some token ∧
            canonicalAssetId token.assetIdField output.outpoint = asset ∧
            token.metadata = allowance.metadata

variable {functions : PushDropFunctions}

theorem Backed.append {allowances : Allowances} {outputs : List TopicOutput}
  (hBacked : Backed functions allowances outputs) (output : TopicOutput) :
  Backed functions allowances (outputs ++ [output]) := by
  intro asset allowance hLook
  rcases hBacked asset allowance hLook with ⟨hAmount, found, hFound, hToken⟩
  constructor
  · rw [coins_append, total_append]
    exact Nat.le_add_right_of_le hAmount
  · exact ⟨found, mem_append_left _ hFound, hToken⟩

variable {token : BTMSToken}

theorem Backed.addAllowance {allowances : Allowances} {outputs : List TopicOutput}
  (hBacked : Backed functions allowances outputs) {output : TopicOutput}
  (hToken : tokenOf functions output.script = some token) :
  Backed functions (addAllowance allowances (canonicalAssetId token.assetIdField output.outpoint)
      token)
    (outputs ++ [output]) := by
  have hCoins := coins_singleton hToken
  unfold BTMSTopicManager.addAllowance
  generalize hAsset : canonicalAssetId token.assetIdField output.outpoint = asset at hCoins ⊢
  cases hExist : allowances.lookup asset with
  | none =>
    intro other allowance hLook
    dsimp only at hLook
    rw [Totals.lookup_set] at hLook
    split_ifs at hLook with hSame
    · rw [← Option.some.inj hLook]
      constructor
      · rw [coins_append, hCoins, total_append, total_cons, if_pos hSame.symm]
        dsimp only
        omega
      · exact ⟨output, mem_append_right _ mem_cons_self,
          token, hToken, hAsset.trans hSame.symm, rfl⟩
    · exact hBacked.append output other allowance hLook
  | some existing =>
    dsimp only
    cases hSum : addTokenAmounts existing.amount token.amount with
    | none => exact hBacked.append output
    | some amount =>
      intro other allowance hLook
      dsimp only at hLook
      rw [Totals.lookup_set] at hLook
      split_ifs at hLook with hSame
      · rcases hBacked asset existing hExist with ⟨hAmount, found, hFound, hMetadata⟩
        rw [← Option.some.inj hLook, hSame]
        constructor
        · rw [coins_append, hCoins, total_append, total_cons, if_pos rfl,
            addTokenAmounts_eq_some hSum]
          dsimp only
          omega
        · exact ⟨found, mem_append_left _ hFound, hMetadata⟩
      · exact hBacked.append output other allowance hLook

theorem collectAssetAllowances_backed (previousUTXOs : List PreviousUTXO) :
  Backed functions (collectAssetAllowances functions previousUTXOs)
    (previousUTXOs.map (·.output)) := by
  have hEmpty : Backed functions [] [] := fun _ _ hLook => nomatch hLook
  rw [← nil_append (previousUTXOs.map (·.output))]
  unfold collectAssetAllowances
  revert hEmpty
  generalize ([] : List TopicOutput) = outputs
  generalize ([] : Allowances) = allowances
  intro hBacked
  induction previousUTXOs generalizing allowances outputs with
  | nil =>
    rw [map_nil, append_nil]
    exact hBacked
  | cons previous rest ih =>
    rw [foldl_cons, map_cons, append_cons]
    apply ih
    cases hToken : tokenOf functions previous.lockingScript with
    | none => exact hBacked.append previous.output
    | some token =>
      have hOut : tokenOf functions previous.output.script = some token := hToken
      exact hBacked.addAllowance hOut

end BTMSTopicManager

-- Admission

namespace BTMSTopicManager

variable (functions : PushDropFunctions)

def IsForeign (tx : TokenTransaction) (asset : JsString) : Prop :=
  ∀ index, asset ≠ outpointText '.' (tx.txid, index)

structure Admission
  (tx : TokenTransaction) (allowances : Allowances) (state : AdmissionState) : Prop where
  admitted : ∀ output ∈ tx.admitOutputs state.outputsToAdmit, ∃ token,
      tokenOf functions output.script = some token ∧
        (token.assetIdField = issueField ∨ token.assetIdField ≠ issueField ∧
          ∃ allowance, allowances.lookup token.assetIdField = some allowance ∧
              allowance.metadata = token.metadata)
  counted :
    ∀ asset, IsForeign tx asset → total (coins functions (tx.admitOutputs state.outputsToAdmit))
          asset ≤
        state.assetTotals.getOr asset
  within :
    ∀ asset, IsForeign tx asset → ∀ allowance, allowances.lookup asset = some allowance → total
            (coins functions (tx.admitOutputs state.outputsToAdmit)) asset ≤
          allowance.amount

variable {functions : PushDropFunctions}

theorem admitOutputs_concat
  {tx : TokenTransaction} (outputsToAdmit : List Nat) {index : Nat} {script : TokenScript}
  (hScript : tx.outputs[index]? = some script) :
  tx.admitOutputs (outputsToAdmit ++ [index]) = tx.admitOutputs outputsToAdmit ++
      [⟨(tx.txid, index), script⟩] := by
  unfold TokenTransaction.admitOutputs
  rw [filterMap_append, filterMap_cons, hScript]
  rfl

theorem isAllowed_eq_true {allowances : Allowances} {sum : Nat}
  (hAllowed : isAllowed allowances token sum = true) :
  ∃ allowance, allowances.lookup token.assetIdField = some allowance ∧ sum ≤ allowance.amount ∧
      allowance.metadata = token.metadata := by
  unfold isAllowed at hAllowed
  cases hLook : allowances.lookup token.assetIdField with
  | none =>
    rw [hLook] at hAllowed
    exact nomatch hAllowed
  | some allowance =>
    rw [hLook] at hAllowed
    dsimp only at hAllowed
    rw [Bool.and_eq_true, Bool.not_eq_true',
      decide_eq_false_iff_not, decide_eq_true_iff, Nat.not_lt] at hAllowed
    exact ⟨allowance, rfl, hAllowed⟩

section Outputs

variable
    {tx : TokenTransaction} {allowances : Allowances} {state : AdmissionState}

theorem admission_empty : Admission functions tx allowances {} where
  admitted := fun _ hOut => absurd hOut not_mem_nil
  counted := fun _ _ => Nat.zero_le _
  within := fun _ _ _ _ => Nat.zero_le _

section

variable (hState : Admission functions tx allowances state)

include hState

theorem Admission.admitIssue {index : Nat} {script : TokenScript}
  (hScript : tx.outputs[index]? = some script)
  (hToken : tokenOf functions script = some token) (hField : token.assetIdField = issueField) :
  Admission functions tx allowances
    { state with
      outputsToAdmit := state.outputsToAdmit ++ [index] } := by
  have hAdmit := admitOutputs_concat state.outputsToAdmit hScript
  -- What is issued is not foreign.
  have hTotal : ∀ asset, IsForeign tx asset → total (coins functions
              (tx.admitOutputs (state.outputsToAdmit ++ [index])))
            asset =
          total (coins functions (tx.admitOutputs state.outputsToAdmit))
            asset := by
    intro asset hForeign
    rw [hAdmit, coins_append, total_append, coins_singleton hToken, hField,
      canonicalAssetId_issueField, total_cons,
      if_neg (hForeign index).symm]
    rfl
  constructor
  case admitted =>
    intro output hOut
    dsimp only at hOut
    rw [hAdmit] at hOut
    rcases mem_concat_iff.mp hOut with hOld | hNew
    · exact hState.admitted output hOld
    · rw [hNew]
      exact ⟨token, hToken, .inl hField⟩
  case counted =>
    intro asset hForeign
    dsimp only
    rw [hTotal asset hForeign]
    exact hState.counted asset hForeign
  case within =>
    intro asset hForeign
    dsimp only
    rw [hTotal asset hForeign]
    exact hState.within asset hForeign

/- A transfer is counted, and admitted within its allowance. -/
theorem Admission.admitTransfer {index : Nat} {script : TokenScript}
  (hScript : tx.outputs[index]? = some script)
  (hToken : tokenOf functions script = some token) (hField : token.assetIdField ≠ issueField) :
  Admission functions tx allowances (admitTransfer allowances state token index) := by
  have hAdmit := admitOutputs_concat state.outputsToAdmit hScript
  unfold BTMSTopicManager.admitTransfer
  cases hSum : addTokenAmounts (state.assetTotals.getOr token.assetIdField) token.amount with
  | none => exact hState
  | some sum =>
    rw [addTokenAmounts_eq_some hSum]
    dsimp only
    have hCounted : ∀ asset, ((state.assetTotals.set token.assetIdField
              (state.assetTotals.getOr token.assetIdField + token.amount)).getOr asset) =
            state.assetTotals.getOr asset +
              if token.assetIdField = asset then token.amount
              else 0 :=
      fun asset => Totals.getOr_addAmount _ _ _ _
    have hTotal :
        ∀ asset, total (coins functions (tx.admitOutputs (state.outputsToAdmit ++ [index]))) asset =
          total (coins functions (tx.admitOutputs state.outputsToAdmit)) asset +
            if token.assetIdField = asset then token.amount
            else 0 := by
      intro asset
      rw [hAdmit, coins_append, total_append, coins_singleton hToken,
        canonicalAssetId_of_ne hField, total_cons]
      rfl
    by_cases hAllowed : isAllowed allowances token
      (state.assetTotals.getOr token.assetIdField + token.amount) = true
    · rcases isAllowed_eq_true hAllowed with ⟨allowance, hLook, hLe, hMetadata⟩
      rw [if_pos hAllowed]
      constructor
      case admitted =>
        intro output hOut
        dsimp only at hOut
        rw [hAdmit] at hOut
        rcases mem_concat_iff.mp hOut with hOld | hNew
        · exact hState.admitted output hOld
        · rw [hNew]
          exact ⟨token, hToken, .inr ⟨hField, allowance, hLook, hMetadata⟩⟩
      case counted =>
        intro asset hForeign
        dsimp only
        rw [hTotal, hCounted]
        exact Nat.add_le_add_right (hState.counted asset hForeign) _
      case within =>
        intro asset hForeign other hOther
        dsimp only
        rw [hTotal]
        by_cases hSame : token.assetIdField = asset
        · rw [hSame, hOther] at hLook
          rw [if_pos hSame, Option.some.inj hLook]
          have hPre := hState.counted asset hForeign
          rw [hSame] at hLe
          omega
        · rw [if_neg hSame]
          exact hState.within asset hForeign other hOther
    · rw [if_neg hAllowed]
      constructor
      case admitted => exact hState.admitted
      case counted =>
        intro asset hForeign
        dsimp only
        rw [hCounted]
        exact Nat.le_add_right_of_le (hState.counted asset hForeign)
      case within => exact hState.within

theorem admitOutput_admission {entry : TokenScript × Nat}
  (hEntry : tx.outputs[entry.2]? = some entry.1) :
  Admission functions tx allowances (admitOutput functions allowances state entry) := by
  unfold admitOutput
  cases hToken : tokenOf functions entry.1 with
  | none => exact hState
  | some token =>
    dsimp only
    by_cases hField : token.assetIdField = issueField
    · rw [if_pos hField]
      exact hState.admitIssue hEntry hToken hField
    · rw [if_neg hField]
      exact hState.admitTransfer hEntry hToken hField

end

theorem foldl_admitOutput_admission (entries : List (TokenScript × Nat))
  (hEnts : ∀ entry ∈ entries, tx.outputs[entry.2]? = some entry.1)
  (hState : Admission functions tx allowances state) :
  Admission functions tx allowances (entries.foldl (admitOutput functions allowances) state) := by
  induction entries generalizing state with
  | nil => exact hState
  | cons entry entries ih =>
    apply ih
    · exact fun other hOther => hEnts other (mem_cons_of_mem entry hOther)
    · exact admitOutput_admission hState (hEnts entry mem_cons_self)

theorem collectAdmissibleOutputs_admission (tx : TokenTransaction) (allowances : Allowances) :
  Admission functions tx allowances (tx.outputs.zipIdx.foldl
      (admitOutput functions allowances) {}) := by
  apply foldl_admitOutput_admission
  · intro entry hEntry
    exact mem_zipIdx_iff_getElem?.mp hEntry
  · exact admission_empty

end Outputs

theorem outputsToAdmit_foldl
  (functions : PushDropFunctions) (allowances : Allowances) (entries : List (TokenScript × Nat))
  (state : AdmissionState) :
  ∃ added, (entries.foldl (admitOutput functions allowances) state).outputsToAdmit =
      state.outputsToAdmit ++ added ∧
    added.Sublist (entries.map (·.2)) := by
  induction entries generalizing state with
  | nil => exact ⟨[], (append_nil _).symm, List.Sublist.refl _⟩
  | cons entry entries ih =>
    rcases ih (admitOutput functions allowances state entry) with ⟨added, hAdded, hSub⟩
    rw [foldl_cons, map_cons]
    have hStep :
        (admitOutput functions allowances state entry).outputsToAdmit = state.outputsToAdmit ∨
          (admitOutput functions allowances state entry).outputsToAdmit =
            state.outputsToAdmit ++ [entry.2] := by
      unfold admitOutput BTMSTopicManager.admitTransfer
      split
      · exact .inl rfl
      · split_ifs
        · exact .inr rfl
        · split
          · exact .inl rfl
          · dsimp only
            split_ifs
            · exact .inr rfl
            · exact .inl rfl
    rcases hStep with hSame | hMore
    · rw [hSame] at hAdded
      exact ⟨added, hAdded, hSub.cons _⟩
    · rw [hMore, append_assoc] at hAdded
      exact ⟨entry.2 :: added, hAdded, hSub.cons_cons _⟩

theorem collectAdmissibleOutputs_nodup (tx : TokenTransaction) (allowances : Allowances) :
  (collectAdmissibleOutputs functions tx allowances).Nodup := by
  rcases outputsToAdmit_foldl functions allowances tx.outputs.zipIdx {} with
    ⟨added, hAdded, hSub⟩
  unfold collectAdmissibleOutputs
  rw [hAdded]
  apply List.Nodup.sublist hSub
  rw [zipIdx_map_snd]
  exact nodup_range'

end BTMSTopicManager

end TsStack
