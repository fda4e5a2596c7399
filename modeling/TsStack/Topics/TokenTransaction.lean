import Mathlib.Data.List.Nodup
import TsStack.Lib.CoinLedger
import TsStack.Primitives.Decimal
import TsStack.Script.Chunks

/-
  Transactions as the token topic managers read them, and
  runs of transactions over a topic.

  A transaction identifier is given by its bytes, and its
  text is their hexadecimal text.  A source transaction is
  present where the BEEF gives one.
-/

-- Transactions

open List Option

namespace TsStack

abbrev TokenScript := List ScriptChunk

/- An output by its transaction and its index. -/
abbrev TokenOutpoint := Bytes × Nat

structure SourceTransaction where
  txid : Bytes
  outputs : List TokenScript
deriving DecidableEq, Repr

structure TokenInput where
  sourceTXID : Bytes
  sourceOutputIndex : Nat
  sourceTransaction : Option SourceTransaction := none
deriving DecidableEq, Repr

structure TokenTransaction where
  txid : Bytes
  inputs : List TokenInput
  outputs : List TokenScript
deriving DecidableEq, Repr

def TokenInput.outpoint (input : TokenInput) : TokenOutpoint :=
  (input.sourceTXID, input.sourceOutputIndex)

/- The text of an output, `<txid><separator><index>`. -/
def outpointText (separator : Char) (outpoint : TokenOutpoint) : JsString :=
  toHex outpoint.1 ++ separator :: Nat.toDigits 10 outpoint.2

/- The answer of a topic manager. -/
structure AdmittanceInstructions where
  outputsToAdmit : List Nat
  coinsToRetain : List Nat
  coinsRemoved : List Nat := []
deriving DecidableEq, Repr

def isHexDigit (char : Char) : Bool :=
  (hexCharToValue char).isSome

theorem isHexDigit_of_mem_toHex {msg : Bytes} {char : Char} (hChar : char ∈ toHex msg) :
  isHexDigit char = true :=
  isSome_of_mem_toHex hChar

/- The parts around the first of a separator are determined. -/
theorem append_cons_inj
  {α : Type} {separator : α} {left right left' right' : List α} (hLeft : separator ∉ left)
  (hLeft' : separator ∉ left') (hEq : left ++ separator :: right = left' ++ separator :: right') :
  left = left' ∧ right = right' := by
  induction left generalizing left' with
  | nil =>
    cases left' with
    | nil => exact ⟨rfl, (List.cons.inj hEq).2⟩
    | cons head tail =>
      have hHead := (List.cons.inj hEq).1
      rw [hHead] at hLeft'
      exact absurd mem_cons_self hLeft'
  | cons head tail ih =>
    cases left' with
    | nil =>
      have hHead := (List.cons.inj hEq).1
      rw [← hHead] at hLeft
      exact absurd mem_cons_self hLeft
    | cons head' tail' =>
      rcases List.cons.inj hEq with ⟨rfl, hTail⟩
      rcases ih (fun h => hLeft (mem_cons_of_mem _ h))
          (fun h => hLeft' (mem_cons_of_mem _ h))
          hTail with
        ⟨rfl, rfl⟩
      exact ⟨rfl, rfl⟩

theorem outpointText_injective {separator : Char} (hSeparator : isHexDigit separator = false) :
  Function.Injective (outpointText separator) := by
  have hNotMem (msg : Bytes) : separator ∉ toHex msg := by
    intro hMem
    rw [isHexDigit_of_mem_toHex hMem] at hSeparator
    exact absurd hSeparator (by decide)
  rintro ⟨txid, index⟩ ⟨txid', index'⟩ hEq
  rcases append_cons_inj (hNotMem txid) (hNotMem txid') hEq with ⟨hTxid, hIdx⟩
  rw [Prod.mk.injEq]
  exact ⟨toHex_injective hTxid, toDigits_injective hIdx⟩

-- Totals by Key

/- A `Map` of totals in the order of insertion. -/
abbrev Totals (N : Type) := List (JsString × N)

namespace Totals

variable {N : Type}

def set (key : JsString) (value : N) : Totals N → Totals N
| [] => [(key, value)]
| entry :: rest =>
  if entry.1 = key then (key, value) :: rest
  else entry :: set key value rest

/- `get(key) ?? zero`. -/
def getOr [Zero N] (totals : Totals N) (key : JsString) : N :=
  (totals.lookup key).getD 0

def addAmount [Zero N] [Add N] (totals : Totals N) (key : JsString) (amount : N) : Totals N :=
  totals.set key (totals.getOr key + amount)

theorem lookup_set (totals : Totals N) (key other : JsString) (value : N) :
  (totals.set key value).lookup other =
    if other = key then some value else totals.lookup other := by
  induction totals with
  | nil =>
    unfold set
    rw [lookup_cons]
    by_cases hSame : other = key
    · rw [if_pos hSame, hSame, beq_self_eq_true]
    · rw [if_neg hSame, beq_false_of_ne hSame]
  | cons entry rest ih =>
    rcases entry with ⟨name, total⟩
    unfold set
    by_cases hName : name = key
    · rw [if_pos hName, lookup_cons, lookup_cons, hName]
      by_cases hSame : other = key
      · rw [if_pos hSame, hSame, beq_self_eq_true]
      · rw [if_neg hSame, beq_false_of_ne hSame]
    · rw [if_neg hName, lookup_cons, lookup_cons, ih]
      by_cases hSame : other = name
      · subst hSame
        simp [hName]
      · rw [beq_false_of_ne hSame]

theorem getOr_set [Zero N] (totals : Totals N) (key other : JsString) (value : N) :
  (totals.set key value).getOr other = if other = key then value else totals.getOr other := by
  unfold getOr
  rw [lookup_set]
  split_ifs
  · rfl
  · rfl

theorem getOr_addAmount (totals : Totals Nat) (key other : JsString) (amount : Nat) :
  (totals.addAmount key amount).getOr other = totals.getOr other +
      if key = other then amount else 0 := by
  unfold addAmount
  rw [getOr_set]
  by_cases hSame : other = key
  · rw [if_pos hSame, if_pos hSame.symm, hSame]
  · rw [if_neg hSame, if_neg (Ne.symm hSame)]
    rfl

end Totals

-- Topics

structure TopicOutput where
  outpoint : TokenOutpoint
  script : TokenScript
deriving DecidableEq, Repr

structure TopicState where
  processed : List Bytes := []
  unspent : List TopicOutput := []
deriving DecidableEq, Repr

def TokenTransaction.admitOutputs
  (tx : TokenTransaction) (outputsToAdmit : List Nat) : List TopicOutput :=
  outputsToAdmit.filterMap fun index =>
    tx.outputs[index]?.map fun script => ⟨(tx.txid, index), script⟩

def TokenTransaction.spends (tx : TokenTransaction) (outpoint : TokenOutpoint) : Bool :=
  (tx.inputs.map (·.outpoint)).contains outpoint

def TopicState.apply
  (state : TopicState) (tx : TokenTransaction) (outputsToAdmit : List Nat) : TopicState where
  processed := tx.txid :: state.processed
  unspent :=
    state.unspent.filter (fun output =>
      !tx.spends output.outpoint) ++ tx.admitOutputs outputsToAdmit

/-
  A transaction as the engine submits it.  It is new, it spends an output once, its previous coins
  are the inputs that spend unspent outputs of the topic, and a source transaction that is found
  is the one that was processed.
-/
structure Submission
  (resolve : TokenInput → Option SourceTransaction) (state : TopicState) (tx : TokenTransaction)
  (previousCoins : List Nat) : Prop where
  fresh : tx.txid ∉ state.processed
  spendsOnce : (tx.inputs.map (·.outpoint)).Nodup
  coinsNodup : previousCoins.Nodup
  mem_coins : ∀ coin, coin ∈ previousCoins ↔ ∃ input output,
        tx.inputs[coin]? = some input ∧ output ∈ state.unspent ∧ output.outpoint = input.outpoint
  sources : ∀ coin ∈ previousCoins, ∀ input output source, tx.inputs[coin]? = some input →
      output ∈ state.unspent → output.outpoint = input.outpoint →
      resolve input = some source → source.txid = input.sourceTXID ∧
          source.outputs[input.sourceOutputIndex]? = some output.script

structure TopicState.WellFormed (state : TopicState) : Prop where
  nodup : (state.unspent.map (·.outpoint)).Nodup
  processed : ∀ output ∈ state.unspent, output.outpoint.1 ∈ state.processed

theorem TopicState.wellFormed_empty : TopicState.WellFormed {} where
  nodup := nodup_nil
  processed := fun _ hOut => absurd hOut not_mem_nil

variable
    {tx : TokenTransaction} {outputsToAdmit : List Nat}

theorem mem_admitOutputs {output : TopicOutput} : output ∈ tx.admitOutputs outputsToAdmit ↔
    output.outpoint.1 = tx.txid ∧ output.outpoint.2 ∈ outputsToAdmit ∧
      tx.outputs[output.outpoint.2]? = some output.script := by
  unfold TokenTransaction.admitOutputs
  rw [mem_filterMap]
  constructor
  · rintro ⟨index, hIdx, hOut⟩
    rcases map_eq_some_iff.mp hOut with ⟨script, hScript, rfl⟩
    exact ⟨rfl, hIdx, hScript⟩
  · rintro ⟨hTxid, hIdx, hScript⟩
    refine ⟨output.outpoint.2, hIdx, ?_⟩
    rw [hScript, map_some, ← hTxid]

theorem admit_nodup (hNodup : outputsToAdmit.Nodup) :
  ((tx.admitOutputs outputsToAdmit).map (·.outpoint)).Nodup := by
  induction outputsToAdmit with
  | nil => exact nodup_nil
  | cons index rest ih =>
    rcases nodup_cons.mp hNodup with ⟨hNew, hRest⟩
    unfold TokenTransaction.admitOutputs at ih ⊢
    rw [filterMap_cons]
    cases hScript : tx.outputs[index]? with
    | none => exact ih hRest
    | some script =>
      refine nodup_cons.mpr ⟨?_, ih hRest⟩
      intro hOld
      rcases List.mem_map.mp hOld with ⟨output, hOut, hEq⟩
      have hIdx := (mem_admitOutputs.mp hOut).2.1
      rw [hEq] at hIdx
      exact hNew hIdx

variable {state : TopicState}

theorem TopicState.WellFormed.apply (hState : state.WellFormed) (hFresh : tx.txid ∉ state.processed)
  (hNodup : outputsToAdmit.Nodup) : (state.apply tx outputsToAdmit).WellFormed := by
  constructor
  case nodup =>
    unfold TopicState.apply
    dsimp only
    rw [map_append]
    apply nodup_append.mpr
    refine ⟨?_, admit_nodup hNodup, ?_⟩
    · exact hState.nodup.sublist (filter_sublist.map _)
    · intro outpoint hOld outpoint' hNew hEq
      rcases List.mem_map.mp hOld with ⟨output, hOut, rfl⟩
      rcases List.mem_map.mp hNew with ⟨added, hAdded, rfl⟩
      have hProcessed := hState.processed output (mem_of_mem_filter hOut)
      rw [hEq, (mem_admitOutputs.mp hAdded).1] at hProcessed
      exact hFresh hProcessed
  case processed =>
    intro output hOut
    rcases mem_append.mp hOut with hOld | hNew
    · exact mem_cons_of_mem _ (hState.processed output (mem_of_mem_filter hOld))
    · rw [(mem_admitOutputs.mp hNew).1]
      exact mem_cons_self

def TokenTransaction.sourceOutput
  (resolve : TokenInput → Option SourceTransaction) (tx : TokenTransaction)
  (coin : Nat) : Option TopicOutput := do
  let input ← tx.inputs[coin]?
  let source ← resolve input
  let script ← source.outputs[input.sourceOutputIndex]?
  some ⟨input.outpoint, script⟩

section Sources

variable
    {resolve : TokenInput → Option SourceTransaction} {state : TopicState} {tx : TokenTransaction}
    {previousCoins : List Nat}

section

variable (hSubm : Submission resolve state tx previousCoins)
include hSubm

theorem Submission.sourceOutput_eq
  {coin : Nat} (hCoin : coin ∈ previousCoins) {input : TokenInput} {output : TopicOutput}
  (hInput : tx.inputs[coin]? = some input) (hOut : output ∈ state.unspent)
  (hOutpoint : output.outpoint = input.outpoint) :
  tx.sourceOutput resolve coin = (resolve input).map fun _ => output := by
  unfold TokenTransaction.sourceOutput
  rw [hInput]
  change (resolve input >>= _) = _
  cases hSrc : resolve input with
  | none => rfl
  | some source =>
    rcases hSubm.sources coin hCoin input output source hInput hOut hOutpoint hSrc with
      ⟨_, hScript⟩
    change (source.outputs[input.sourceOutputIndex]? >>= _) = some output
    rw [hScript, ← hOutpoint]
    rfl

theorem Submission.sourceOutput_spec
  {coin : Nat} (hCoin : coin ∈ previousCoins) {output : TopicOutput}
  (hOut : tx.sourceOutput resolve coin = some output) :
  output ∈ state.unspent ∧ ∃ input, tx.inputs[coin]? = some input ∧
        output.outpoint = input.outpoint := by
  rcases (hSubm.mem_coins coin).mp hCoin with ⟨input, known, hInput, hKnown, hOutpoint⟩
  rw [hSubm.sourceOutput_eq hCoin hInput hKnown hOutpoint] at hOut
  rcases map_eq_some_iff.mp hOut with ⟨_, _, hSame⟩
  rw [← hSame]
  exact ⟨hKnown, input, hInput, hOutpoint⟩

theorem Submission.sourceOutputs_subperm :
  List.Subperm (previousCoins.filterMap (tx.sourceOutput resolve))
    (state.unspent.filter fun output => tx.spends output.outpoint) := by
  apply subperm_of_subset
  · apply pairwise_filterMap.mpr
    apply hSubm.coinsNodup.imp_of_mem
    intro coin coin' hCoin hCoin' hApart output hOut output' hOut' hEq
    -- Two inputs do not spend one output.
    rcases hSubm.sourceOutput_spec hCoin hOut with ⟨_, input, hInput, hOutpoint⟩
    rcases hSubm.sourceOutput_spec hCoin' hOut' with ⟨_, input', hInput', hOutpoint'⟩
    have hPlace : (tx.inputs.map (·.outpoint))[coin]? = (tx.inputs.map (·.outpoint))[coin']? := by
      rw [getElem?_map, getElem?_map, hInput, hInput', map_some, map_some,
        ← hOutpoint, ← hOutpoint', hEq]
    have hLen : coin < (tx.inputs.map (·.outpoint)).length := by
      rw [length_map]
      exact (List.getElem?_eq_some_iff.mp hInput).1
    exact hApart ((getElem?_inj hLen hSubm.spendsOnce).mp hPlace)
  · intro output hOut
    rcases mem_filterMap.mp hOut with ⟨coin, hCoin, hEq⟩
    rcases hSubm.sourceOutput_spec hCoin hEq with ⟨hMem, input, hInput, hOutpoint⟩
    apply mem_filter.mpr
    refine ⟨hMem, ?_⟩
    unfold TokenTransaction.spends
    rw [contains_iff_mem, hOutpoint]
    exact List.mem_map_of_mem (mem_of_getElem? hInput)

end

end Sources

variable {resolve : TokenInput → Option SourceTransaction}

theorem submission_of_no_inputs (tx : TokenTransaction) (hInputs : tx.inputs = []) :
  Submission resolve {} tx [] where
  fresh := not_mem_nil
  spendsOnce := by
    rw [hInputs]
    exact nodup_nil
  coinsNodup := nodup_nil
  mem_coins := by
    intro coin
    constructor
    · exact fun hCoin => absurd hCoin not_mem_nil
    · rintro ⟨_, output, _, hOut, _⟩
      exact absurd hOut not_mem_nil
  sources := fun _ hCoin => absurd hCoin not_mem_nil

def TopicState.previousCoins (state : TopicState) (tx : TokenTransaction) : List Nat :=
  (List.range tx.inputs.length).filter fun coin =>
    tx.inputs[coin]?.any fun input => state.unspent.any (·.outpoint = input.outpoint)

theorem submission_previousCoins
  (hFresh : tx.txid ∉ state.processed) (hOnce : (tx.inputs.map (·.outpoint)).Nodup)
  (hSources : ∀ input ∈ tx.inputs, ∀ output ∈ state.unspent,
      output.outpoint = input.outpoint → ∀ source ∈ resolve input,
          source.txid = input.sourceTXID ∧
            source.outputs[input.sourceOutputIndex]? = some output.script) :
  Submission resolve state tx (state.previousCoins tx) where
  fresh := hFresh
  spendsOnce := hOnce
  coinsNodup := nodup_range.filter _
  mem_coins := by
    intro coin
    unfold TopicState.previousCoins
    rw [mem_filter, mem_range, Option.any_eq_true]
    constructor
    · rintro ⟨_, input, hInput, hAny⟩
      rcases List.any_eq_true.mp hAny with ⟨output, hOut, hSame⟩
      exact ⟨input, output, hInput, hOut, decide_eq_true_iff.mp hSame⟩
    · rintro ⟨input, output, hInput, hOut, hSame⟩
      exact ⟨(List.getElem?_eq_some_iff.mp hInput).1, input,
        hInput, List.any_eq_true.mpr ⟨output, hOut, decide_eq_true hSame⟩⟩
  sources := by
    intro coin _ input output source hInput hOut hSame hSrc
    exact hSources input (mem_of_getElem? hInput) output hOut hSame source hSrc

open CoinLedger

theorem TopicState.total_unspent (state : TopicState) (tx : TokenTransaction)
  (read : TopicOutput → Option (Coin TokenOutpoint JsString)) (key : JsString) :
  total ((state.unspent.filter fun output => !tx.spends output.outpoint).filterMap read) key +
      total ((state.unspent.filter fun output => tx.spends output.outpoint).filterMap read) key =
    total (state.unspent.filterMap read) key := by
  have hPerm := filter_append_perm
    (fun output : TopicOutput => !tx.spends output.outpoint)
    state.unspent
  simp only [Bool.not_not] at hPerm
  rw [← total_append, ← filterMap_append]
  exact total_perm (hPerm.filterMap read) key

theorem Submission.total_sourceOutputs_le
  {previousCoins : List Nat} (hSubm : Submission resolve state tx previousCoins)
  (read : TopicOutput → Option (Coin TokenOutpoint JsString)) (key : JsString) :
  total ((previousCoins.filterMap (tx.sourceOutput resolve)).filterMap read) key ≤
    total ((state.unspent.filter fun output => tx.spends output.outpoint).filterMap read)
      key := by
  apply total_le_of_subperm
  rcases hSubm.sourceOutputs_subperm with ⟨sorted, hPerm, hSub⟩
  exact ⟨sorted.filterMap read, hPerm.filterMap read, hSub.filterMap read⟩

end TsStack
