import TsStack.Topics.TokenTransaction

/-
  Admission of token outputs, of `BaseTokenTopicManager.ts`.

  Amounts are of any type with addition and an order, as the
  manager takes numbers and big integers.  Runs are of
  managers whose amounts are natural numbers.
-/

-- Admission

open List

namespace TsStack

structure DecodedTokenOutput (N : Type) where
  index : Nat
  key : JsString
  amount : N
deriving DecidableEq, Repr

structure BaseTokenTopicManager (N : Type) where
  decodeOutputs : TokenTransaction → List (DecodedTokenOutput N)
  inputTotals : TokenTransaction → List Nat → Totals N
  allowIssuance : Option (JsString → Bool) := none

namespace BaseTokenTopicManager

variable {N : Type} [Zero N] [Add N] [DecidableEq N] [LT N] [DecidableLT N]

def outTotals (outputs : List (DecodedTokenOutput N)) : Totals N :=
  outputs.foldl (fun totals output => totals.addAmount output.key output.amount) []

def conservationHolds (outputs : List (DecodedTokenOutput N)) (inTotals : Totals N) : Bool :=
  (outTotals outputs).all fun entry =>
    !(decide (inTotals.getOr entry.1 > 0) && decide (entry.2 > inTotals.getOr entry.1))

def isIssuance (inTotals : Totals N) (output : DecodedTokenOutput N) : Bool :=
  inTotals.getOr output.key = 0

def applyIssuerPolicy
  (allowIssuance : Option (JsString → Bool)) (outputs : List (DecodedTokenOutput N))
  (inTotals : Totals N) : List (DecodedTokenOutput N) :=
  match allowIssuance with
  | none => outputs
  | some allow => outputs.filter fun output => !isIssuance inTotals output || allow output.key

def admissible
  (manager : BaseTokenTopicManager N) (tx : TokenTransaction) (previousCoins : List Nat) :
  List (DecodedTokenOutput N) :=
  let outputs := manager.decodeOutputs tx
  let inTotals := manager.inputTotals tx previousCoins
  if outputs.length = 0 then []
  else if !conservationHolds outputs inTotals then []
  else applyIssuerPolicy manager.allowIssuance outputs inTotals

def retained (manager : BaseTokenTopicManager N) (tx : TokenTransaction)
  (previousCoins : List Nat) : List Nat :=
  let outputs := manager.decodeOutputs tx
  let inTotals := manager.inputTotals tx previousCoins
  if outputs.length = 0 then []
  else if !conservationHolds outputs inTotals then []
  else previousCoins

def identifyAdmissibleOutputs
  (manager : BaseTokenTopicManager N) (parsed : Except JsError TokenTransaction)
  (previousCoins : List Nat) : AdmittanceInstructions :=
  match parsed with
  | .error _ => ⟨[], [], []⟩
  | .ok tx =>
    { outputsToAdmit := ((manager.admissible tx previousCoins).map (·.index)).mergeSort
      coinsToRetain := manager.retained tx previousCoins }

end BaseTokenTopicManager

-- Conservation

open CoinLedger

namespace BaseTokenTopicManager

def coinsOf (txid : Bytes) (outputs : List (DecodedTokenOutput Nat)) :
  List (Coin TokenOutpoint JsString) :=
  outputs.map fun output => ⟨(txid, output.index), output.key, output.amount⟩

theorem getOr_foldl_addAmount
  (outputs : List (DecodedTokenOutput Nat)) (totals : Totals Nat) (txid : Bytes) (key : JsString) :
  (outputs.foldl (fun totals output => totals.addAmount output.key output.amount)
      totals).getOr key =
    totals.getOr key + total (coinsOf txid outputs) key := by
  induction outputs generalizing totals with
  | nil => rfl
  | cons output outputs ih =>
    rw [foldl_cons, ih, Totals.getOr_addAmount]
    unfold coinsOf
    rw [map_cons, total_cons]
    exact Nat.add_assoc _ _ _

theorem getOr_outTotals (outputs : List (DecodedTokenOutput Nat)) (txid : Bytes) (key : JsString) :
  (outTotals outputs).getOr key = total (coinsOf txid outputs) key := by
  unfold outTotals
  rw [getOr_foldl_addAmount outputs [] txid]
  exact Nat.zero_add _

theorem total_le_of_conservationHolds
  {outputs : List (DecodedTokenOutput Nat)} {inTotals : Totals Nat}
  (hHold : conservationHolds outputs inTotals = true) (txid : Bytes) {key : JsString}
  (hCarry : 0 < inTotals.getOr key) : total (coinsOf txid outputs) key ≤ inTotals.getOr key := by
  rw [← getOr_outTotals]
  unfold Totals.getOr
  cases hLook : (outTotals outputs).lookup key with
  | none => exact Nat.zero_le _
  | some amount =>
    rcases lookup_eq_some_iff.mp hLook with ⟨before, after, hSplit, _⟩
    have hMem : (key, amount) ∈ outTotals outputs := by
      rw [hSplit]
      exact mem_append_right _ mem_cons_self
    have hEntry := List.all_eq_true.mp hHold _ hMem
    simp only [Bool.not_eq_true', Bool.and_eq_false_iff,
      decide_eq_false_iff_not, gt_iff_lt, not_lt] at hEntry
    rcases hEntry with hNone | hLe
    · exact absurd hCarry (Nat.not_lt.mpr hNone)
    · exact hLe

theorem admissible_sublist
  (manager : BaseTokenTopicManager Nat) (tx : TokenTransaction) (previousCoins : List Nat) :
  (manager.admissible tx previousCoins).Sublist (manager.decodeOutputs tx) := by
  unfold admissible applyIssuerPolicy
  dsimp only
  split_ifs
  · exact nil_sublist _
  · exact nil_sublist _
  · split
    · exact List.Sublist.refl _
    · exact filter_sublist

/-
  In one transaction the admitted outputs of a key that the inputs carry do not exceed the inputs.
-/
theorem admitted_le_carried
  (manager : BaseTokenTopicManager Nat) (tx : TokenTransaction) (previousCoins : List Nat)
  {key : JsString} (hCarry : 0 < (manager.inputTotals tx previousCoins).getOr key) :
  total (coinsOf tx.txid (manager.admissible tx previousCoins)) key ≤
    (manager.inputTotals tx previousCoins).getOr key := by
  by_cases hHold :
    conservationHolds (manager.decodeOutputs tx) (manager.inputTotals tx previousCoins) = true
  · apply Nat.le_trans _ (total_le_of_conservationHolds hHold tx.txid hCarry)
    apply total_le_of_sublist
    exact (admissible_sublist manager tx previousCoins).map _
  · have hNone : manager.admissible tx previousCoins = [] := by
      unfold admissible
      dsimp only
      rw [Bool.not_eq_true] at hHold
      rw [hHold]
      split_ifs
      · rfl
      · rfl
      · contradiction
    rw [hNone]
    exact Nat.zero_le _

end BaseTokenTopicManager

-- Runs

namespace BaseTokenTopicManager

/-
  What a subclass of the manager does: it reads each output
  by itself, and counts the coins of the source outputs.
-/
structure ReadsOutputs
  (manager : BaseTokenTopicManager Nat) (resolve : TokenInput → Option SourceTransaction)
  (read : TopicOutput → Option (Coin TokenOutpoint JsString)) :
  Prop where
  place : ∀ output coin, read output = some coin → coin.place = output.outpoint
  indices : ∀ tx, ((manager.decodeOutputs tx).map (·.index)).Nodup
  decode : ∀ tx, ∀ output ∈ manager.decodeOutputs tx, ∃ script,
      tx.outputs[output.index]? = some script ∧ read ⟨(tx.txid, output.index), script⟩ =
          some ⟨(tx.txid, output.index), output.key, output.amount⟩
  carried : ∀ tx previousCoins key, (manager.inputTotals tx previousCoins).getOr key = total
          ((previousCoins.filterMap (tx.sourceOutput resolve)).filterMap read) key

def issuances
  (manager : BaseTokenTopicManager Nat) (tx : TokenTransaction) (previousCoins : List Nat) :
  List (Coin TokenOutpoint JsString) :=
  coinsOf tx.txid ((manager.admissible tx previousCoins).filter
      (isIssuance (manager.inputTotals tx previousCoins)))

inductive Run
  (manager : BaseTokenTopicManager Nat) (resolve : TokenInput → Option SourceTransaction) :
  TopicState → List (Coin TokenOutpoint JsString) → Prop where
| empty : Run manager resolve {} []
| submit
    {state : TopicState} {issued : List (Coin TokenOutpoint JsString)} {tx : TokenTransaction}
    {previousCoins : List Nat} (hRun : Run manager resolve state issued)
    (hSubmission : Submission resolve state tx previousCoins) :
    Run manager resolve (state.apply tx (manager.identifyAdmissibleOutputs (.ok tx)
          previousCoins).outputsToAdmit)
      (issued ++ manager.issuances tx previousCoins)

section Runs

variable
    {manager : BaseTokenTopicManager Nat} {resolve : TokenInput → Option SourceTransaction}
    {read : TopicOutput → Option (Coin TokenOutpoint JsString)} {state : TopicState}
    {tx : TokenTransaction} {previousCoins : List Nat}

theorem outputsToAdmit_perm
  (manager : BaseTokenTopicManager Nat) (tx : TokenTransaction) (previousCoins : List Nat) :
  List.Perm (manager.identifyAdmissibleOutputs (.ok tx) previousCoins).outputsToAdmit
    ((manager.admissible tx previousCoins).map (·.index)) :=
  mergeSort_perm _ _

theorem outputsToAdmit_nodup (hReads : manager.ReadsOutputs resolve read) (tx : TokenTransaction)
  (previousCoins : List Nat) :
  (manager.identifyAdmissibleOutputs (.ok tx) previousCoins).outputsToAdmit.Nodup := by
  have hPerm := outputsToAdmit_perm manager tx previousCoins
  apply hPerm.nodup_iff.mpr
  exact (hReads.indices tx).sublist ((admissible_sublist manager tx previousCoins).map _)

theorem filterMap_read_admitOutputs
  (tx : TokenTransaction) (hReads : manager.ReadsOutputs resolve read)
  {outputs : List (DecodedTokenOutput Nat)}
  (hOuts : ∀ output ∈ outputs, output ∈ manager.decodeOutputs tx) :
  (tx.admitOutputs (outputs.map (·.index))).filterMap read = coinsOf tx.txid outputs := by
  induction outputs with
  | nil => rfl
  | cons output outputs ih =>
    rcases hReads.decode tx output (hOuts output mem_cons_self) with
      ⟨script, hScript, hRead⟩
    have hTail := ih fun other hOther => hOuts other (mem_cons_of_mem output hOther)
    unfold TokenTransaction.admitOutputs coinsOf at hTail ⊢
    rw [map_cons, filterMap_cons, hScript, Option.map_some, map_cons]
    dsimp only
    rw [filterMap_cons, hRead]
    dsimp only
    rw [hTail]

section

variable (hReads : manager.ReadsOutputs resolve read)

include hReads

theorem total_admitOutputs (tx : TokenTransaction) (previousCoins : List Nat) (key : JsString) :
  total ((tx.admitOutputs (manager.identifyAdmissibleOutputs (.ok tx)
        previousCoins).outputsToAdmit).filterMap read)
      key =
    total (coinsOf tx.txid (manager.admissible tx previousCoins))
      key := by
  have hPerm : List.Perm (tx.admitOutputs (manager.identifyAdmissibleOutputs (.ok tx)
          previousCoins).outputsToAdmit)
        (tx.admitOutputs ((manager.admissible tx previousCoins).map (·.index))) :=
    (outputsToAdmit_perm manager tx previousCoins).filterMap _
  rw [total_perm (hPerm.filterMap read)]
  have hEq := filterMap_read_admitOutputs tx hReads
    (admissible_sublist manager tx previousCoins).subset
  exact congrArg (total · key) hEq

theorem carried_le_spent
  (hSubmission : Submission resolve state tx previousCoins) (key : JsString) :
  (manager.inputTotals tx previousCoins).getOr key ≤ total ((state.unspent.filter fun output =>
        tx.spends output.outpoint).filterMap read)
      key := by
  rw [hReads.carried]
  exact hSubmission.total_sourceOutputs_le read key

theorem total_apply_le (hSubmission : Submission resolve state tx previousCoins) (key : JsString) :
  total ((state.apply tx (manager.identifyAdmissibleOutputs (.ok tx)
          previousCoins).outputsToAdmit).unspent.filterMap read)
      key ≤
    total (state.unspent.filterMap read) key +
      total (manager.issuances tx previousCoins) key := by
  have hSplit := state.total_unspent tx read key
  have hAdmit := total_admitOutputs hReads tx previousCoins key
  have hSpent := carried_le_spent hReads hSubmission key
  have hAfter : total (coinsOf tx.txid (manager.admissible tx previousCoins)) key ≤
        (manager.inputTotals tx previousCoins).getOr key +
          total (manager.issuances tx previousCoins) key := by
    rcases Nat.eq_zero_or_pos ((manager.inputTotals tx previousCoins).getOr key) with
      hNone | hCarry
    · -- Every admitted output of the key is an issuance.
      have hAll : total (coinsOf tx.txid (manager.admissible tx previousCoins)) key ≤
            total (manager.issuances tx previousCoins) key := by
        unfold issuances
        induction manager.admissible tx previousCoins with
        | nil => exact Nat.le_refl _
        | cons output outputs ih =>
          unfold coinsOf at ih ⊢
          rw [map_cons, total_cons]
          by_cases hKey : output.key = key
          · have hIssuance : isIssuance (manager.inputTotals tx previousCoins) output = true := by
              unfold isIssuance
              rw [hKey, hNone]
              rfl
            rw [filter_cons_of_pos hIssuance, map_cons, total_cons]
            exact Nat.add_le_add_left ih _
          · rw [if_neg hKey, Nat.zero_add]
            apply Nat.le_trans ih
            apply total_le_of_sublist
            apply List.Sublist.map
            exact List.Sublist.filter _ (sublist_cons_self output outputs)
      exact Nat.le_add_left_of_le hAll
    · exact Nat.le_add_right_of_le (admitted_le_carried manager tx previousCoins hCarry)
  unfold TopicState.apply
  dsimp only
  rw [filterMap_append, total_append, hAdmit]
  omega

end

theorem allow_of_mem_issuances
  {coin : Coin TokenOutpoint JsString} (hCoin : coin ∈ manager.issuances tx previousCoins)
  {allow : JsString → Bool} (hPolicy : manager.allowIssuance = some allow) :
  allow coin.asset = true := by
  unfold issuances coinsOf at hCoin
  rcases List.mem_map.mp hCoin with ⟨output, hOut, rfl⟩
  rcases mem_filter.mp hOut with ⟨hMem, hIssuance⟩
  unfold admissible applyIssuerPolicy at hMem
  rw [hPolicy] at hMem
  dsimp only at hMem
  split_ifs at hMem
  · exact absurd hMem not_mem_nil
  · exact absurd hMem not_mem_nil
  · have hAllowed := (mem_filter.mp hMem).2
    rw [hIssuance] at hAllowed
    exact hAllowed

end Runs

structure RunInvariant (manager : BaseTokenTopicManager Nat)
  (read : TopicOutput → Option (Coin TokenOutpoint JsString)) (state : TopicState)
  (issued : List (Coin TokenOutpoint JsString)) : Prop where
  wellFormed : state.WellFormed
  total_le : ∀ key, total (state.unspent.filterMap read) key ≤ total issued key
  nodup : (issued.map (·.place)).Nodup
  processed : ∀ coin ∈ issued, coin.place.1 ∈ state.processed
  allowed : ∀ coin ∈ issued, ∀ allow, manager.allowIssuance = some allow → allow coin.asset = true

theorem Run.invariant
  {manager : BaseTokenTopicManager Nat} {resolve : TokenInput → Option SourceTransaction}
  {read : TopicOutput → Option (Coin TokenOutpoint JsString)}
  (hReads : manager.ReadsOutputs resolve read) {state : TopicState}
  {issued : List (Coin TokenOutpoint JsString)} (hRun : Run manager resolve state issued) :
  RunInvariant manager read state issued := by
  induction hRun with
  | empty =>
    constructor
    case wellFormed => exact TopicState.wellFormed_empty
    case total_le => exact fun _ => Nat.le_refl _
    case nodup => exact nodup_nil
    case processed => exact fun _ hCoin => absurd hCoin not_mem_nil
    case allowed => exact fun _ hCoin => absurd hCoin not_mem_nil
  | @submit state issued tx previousCoins _ hSubmission ih =>
    have hPlaces : ∀ coin ∈ manager.issuances tx previousCoins, coin.place.1 = tx.txid := by
      intro coin hCoin
      unfold issuances coinsOf at hCoin
      rcases List.mem_map.mp hCoin with ⟨output, _, rfl⟩
      rfl
    constructor
    case wellFormed =>
      exact ih.wellFormed.apply hSubmission.fresh (outputsToAdmit_nodup hReads tx previousCoins)
    case total_le =>
      intro key
      rw [total_append]
      apply Nat.le_trans (total_apply_le hReads hSubmission key)
      exact Nat.add_le_add_right (ih.total_le key) _
    case nodup =>
      rw [map_append]
      apply nodup_append.mpr
      refine ⟨ih.nodup, ?_, ?_⟩
      · unfold issuances coinsOf
        rw [List.map_map]
        have hIndices : ((manager.admissible tx previousCoins).map (·.index)).Nodup :=
          (hReads.indices tx).sublist ((admissible_sublist manager tx previousCoins).map _)
        have hFiltered := hIndices.sublist ((filter_sublist (p := isIssuance
          (manager.inputTotals tx previousCoins))).map
            (fun output : DecodedTokenOutput Nat => output.index))
        have hMapped := hFiltered.map
          (f := fun index => (tx.txid, index))
          (fun a b hEq => (Prod.mk.inj hEq).2)
        rw [List.map_map] at hMapped
        exact hMapped
      · intro place hOld place' hNew hEq
        rcases List.mem_map.mp hOld with ⟨coin, hCoin, rfl⟩
        rcases List.mem_map.mp hNew with ⟨added, hAdded, rfl⟩
        have hProcessed := ih.processed coin hCoin
        rw [hEq, hPlaces added hAdded] at hProcessed
        exact hSubmission.fresh hProcessed
    case processed =>
      intro coin hCoin
      rcases mem_append.mp hCoin with hOld | hNew
      · exact mem_cons_of_mem _ (ih.processed coin hOld)
      · rw [hPlaces coin hNew]
        exact mem_cons_self
    case allowed =>
      intro coin hCoin allow hPolicy
      rcases mem_append.mp hCoin with hOld | hNew
      · exact ih.allowed coin hOld allow hPolicy
      · exact allow_of_mem_issuances hNew hPolicy

end BaseTokenTopicManager

end TsStack
