import TsStack.Overlay.OutputStorage

/-
  The relations of stored outputs while coins are pruned.

  The runs that prune the coins of a transaction read and
  write the references of common ancestors.  When no output
  is touched by two of them, each reference to an output
  that is deleted is removed by the run that deletes it.
-/

-- Lookups

open List Option

namespace TsStack.Overlay

open OutputStorage

open Gasp (Outpoint)

variable {storage : OutputStorage} {outpoint other : Outpoint} {topic otherTopic : JsString}
variable {output : Output}

theorem key_of_findOutput (hFind : storage.findOutput outpoint topic = some output) :
  output.outpoint = outpoint ∧ output.topic = topic := by
  have hKey := find?_some hFind
  simpa [isOutput] using hKey

theorem findOutput_deleteOutput
  (storage : OutputStorage) (outpoint other : Outpoint) (topic otherTopic : JsString) :
  (storage.deleteOutput outpoint topic).findOutput other otherTopic =
    if other = outpoint ∧ otherTopic = topic then none
    else storage.findOutput other otherTopic := by
  unfold findOutput deleteOutput
  rw [find?_filter]
  split_ifs with hKey
  · rw [find?_eq_none]
    intro output _
    simp [hKey.1, hKey.2]
  · congr 1
    funext output
    unfold isOutput
    grind

theorem findOutput_updateOutput
  (storage : OutputStorage) (outpoint other : Outpoint) (topic otherTopic : JsString)
  {update : Output → Output} (hKey :
    ∀ output, (update output).outpoint = output.outpoint ∧ (update output).topic = output.topic) :
  (storage.updateOutput outpoint topic update).findOutput other otherTopic =
    if other = outpoint ∧ otherTopic = topic then (storage.findOutput other otherTopic).map update
    else storage.findOutput other otherTopic := by
  unfold findOutput updateOutput
  induction storage.outputs with
  | nil => split_ifs <;> rfl
  | cons head outputs ih =>
    have hSame : isOutput other otherTopic (update head) =
          isOutput other otherTopic head := by
      unfold isOutput
      rw [(hKey head).1, (hKey head).2]
    rw [map_cons]
    by_cases hOther : isOutput other otherTopic head = true
    · by_cases hHead : isOutput outpoint topic head = true
      · have hEq : other = outpoint ∧ otherTopic = topic := by
          simp only [isOutput, decide_eq_true_eq] at hOther hHead
          grind
        rw [if_pos hHead, if_pos hEq, find?_cons_of_pos (hSame.trans hOther),
          find?_cons_of_pos hOther, map_some]
      · have hNe : ¬(other = outpoint ∧ otherTopic = topic) := by
          rintro ⟨rfl, rfl⟩
          exact hHead hOther
        rw [if_neg hHead, if_neg hNe, find?_cons_of_pos hOther, find?_cons_of_pos hOther]
    · rw [find?_cons_of_neg hOther, ← ih]
      apply find?_cons_of_neg
      split_ifs with hHead
      · rw [hSame]
        exact hOther
      · exact hOther

theorem findOutput_insertOutput
  (storage : OutputStorage) (output : Output) (other : Outpoint) (otherTopic : JsString) :
  (storage.insertOutput output).findOutput other otherTopic =
    (storage.findOutput other otherTopic).or
      (if isOutput other otherTopic output then some output
      else none) := by
  unfold insertOutput
  split_ifs with hStore hKey hKey
  · have hSame : output.outpoint = other ∧ output.topic = otherTopic := by
      simpa [isOutput] using hKey
    rw [← hSame.1, ← hSame.2]
    rcases isSome_iff_exists.mp hStore with ⟨found, hFind⟩
    rw [hFind, some_or]
  · rw [or_none]
  · unfold findOutput
    rw [find?_append, find?_singleton, if_pos hKey]
  · unfold findOutput
    rw [find?_append, find?_singleton, if_neg hKey]

-- Relations

structure Relations where
  outputsConsumed : List Outpoint
  consumedBy : List Outpoint

def Output.relations (output : Output) : Relations where
  outputsConsumed := output.outputsConsumed
  consumedBy := output.consumedBy

def OutputStorage.relations
  (storage : OutputStorage) (topic : JsString) (outpoint : Outpoint) : Option Relations :=
  (storage.findOutput outpoint topic).map (·.relations)

structure DualRelations (storage : OutputStorage) (topic : JsString) : Prop where
  dual : ∀ left right leftOutput rightOutput, storage.findOutput left topic = some leftOutput →
      storage.findOutput right topic = some rightOutput → (right ∈ leftOutput.outputsConsumed ↔
          left ∈ rightOutput.consumedBy)
  stored : ∀ outpoint output, storage.findOutput outpoint topic = some output →
        ∀ consumer ∈ output.consumedBy, (storage.findOutput consumer topic).isSome

inductive Prunes (relations : Outpoint → Option Relations) (coin : Outpoint) : Outpoint → Prop
| coin
    (row : Relations) (stored : relations coin = some row) (unused : row.consumedBy = []) :
    Prunes relations coin coin
| ancestor
    (outpoint : Outpoint) (row : Relations) (stored : relations outpoint = some row)
    (used : row.consumedBy ≠ [])
    (consumers : ∀ consumer ∈ row.consumedBy, Prunes relations coin consumer) :
    Prunes relations coin outpoint

def Touches (relations : Outpoint → Option Relations) (coin outpoint : Outpoint) : Prop :=
  ∃ pruned row, Prunes relations coin pruned ∧
      relations pruned = some row ∧ outpoint ∈ row.outputsConsumed ∧ (relations outpoint).isSome

/- Coins whose prunings touch nothing in common. -/
def PrunesApart (relations : Outpoint → Option Relations) (left right : Outpoint) : Prop :=
  ∀ outpoint, Touches relations left outpoint → ¬Touches relations right outpoint

/- No output is touched by the prunings of two coins. -/
def SharesNothing (relations : Outpoint → Option Relations) (coins : List Outpoint) : Prop :=
  coins.Pairwise (PrunesApart relations)

structure TopicRelations (storage : OutputStorage) (topic : JsString) : Prop extends
  DualRelations storage topic where
  lower : ∀ outpoint output, storage.findOutput outpoint topic = some output →
        toLowerCase outpoint.txid = outpoint.txid

structure TopicOutputs (storage : OutputStorage) (topic : JsString) : Prop extends
  DualRelations storage topic where
  lower : ∀ outpoint output, storage.findOutput outpoint topic = some output →
        toLowerCase outpoint.txid = outpoint.txid
  applied : ∀ outpoint output, storage.findOutput outpoint topic = some output →
        (outpoint.txid, topic) ∈ storage.applied
  history : ∀ outpoint output, storage.findOutput outpoint topic = some output →
        ∀ consumed ∈ output.outputsConsumed, (consumed.txid, topic) ∈ storage.applied
  unspent : ∀ outpoint output, storage.findOutput outpoint topic = some output →
        output.spent = false → output.consumedBy = []

theorem TopicOutputs.topicRelations {storage : OutputStorage} {topic : JsString}
  (hOuts : TopicOutputs storage topic) : TopicRelations storage topic :=
  ⟨hOuts.toDualRelations, hOuts.lower⟩

variable {relations : Outpoint → Option Relations} {topic : JsString}
variable {coin outpoint consumer : Outpoint} {row : Relations}

theorem prunes_consumer
  (hPrunes : Prunes relations coin outpoint) (hStore : relations outpoint = some row)
  (hConsumer : consumer ∈ row.consumedBy) : Prunes relations coin consumer := by
  cases hPrunes with
  | coin other hOther hUnused =>
    rw [hStore] at hOther
    cases hOther
    rw [hUnused] at hConsumer
    cases hConsumer
  | ancestor _ other hOther _ hConsumers =>
    rw [hStore] at hOther
    cases hOther
    exact hConsumers consumer hConsumer

theorem relations_of_findOutput
  {output : Output} (hFind : storage.findOutput outpoint topic = some output) :
  storage.relations topic outpoint = some output.relations := by
  unfold OutputStorage.relations
  rw [hFind, map_some]

theorem sameOutput_iff {left right : Outpoint} (hLeft : toLowerCase left.txid = left.txid)
  (hRight : toLowerCase right.txid = right.txid) : sameOutput left right = true ↔ left = right := by
  unfold sameOutput
  rw [hLeft, hRight, decide_eq_true_eq]
  constructor
  · rintro ⟨hTxid, hIdx⟩
    cases left
    cases right
    simp_all
  · rintro rfl
    exact ⟨rfl, rfl⟩

theorem sameOutput_self (outpoint : Outpoint) : sameOutput outpoint outpoint = true := by
  unfold sameOutput
  simp

-- Pruned Storages

structure RowOf (old output : Output) : Prop where
  eq : output = { old with consumedBy := output.consumedBy }
  subset : output.consumedBy ⊆ old.consumedBy

structure Pruned (start : OutputStorage) (topic : JsString) (coins : List Outpoint)
  (storage : OutputStorage) : Prop where
  rows : ∀ outpoint output, storage.findOutput outpoint topic = some output → ∃ old,
          start.findOutput outpoint topic = some old ∧ RowOf old output
  removed : ∀ outpoint output old consumer, storage.findOutput outpoint topic = some output →
      start.findOutput outpoint topic = some old → consumer ∈ old.consumedBy →
      consumer ∉ output.consumedBy → storage.findOutput consumer topic = none
  deleted : ∀ outpoint old, start.findOutput outpoint topic = some old →
      storage.findOutput outpoint topic = none → ∃ coin ∈ coins,
          Prunes (start.relations topic) coin outpoint
  others : ∀ outpoint other, other ≠ topic → storage.findOutput outpoint other =
        start.findOutput outpoint other
  applied : storage.applied = start.applied

structure Deletes
  (start : OutputStorage) (topic : JsString) (coin : Outpoint) (storage : OutputStorage)
  (current : Output) : Prop where
  row : ∃ old, start.findOutput current.outpoint topic = some old ∧ RowOf old current
  topic_eq : current.topic = topic
  prunes : Prunes (start.relations topic) coin current.outpoint
  gone : storage.findOutput current.outpoint topic = none

/- What a run of `deleteUTXODeep` relies on in its phase. -/
def PrunePhase.Sound (start : OutputStorage) (topic : JsString) (coin : Outpoint)
  (storage : OutputStorage) : PrunePhase → Prop
| .ancestors current rest =>
  Deletes start topic coin storage current ∧ rest ⊆ current.outputsConsumed
| .update current ancestor remaining rest =>
  Deletes start topic coin storage current ∧ rest ⊆ current.outputsConsumed ∧
      ancestor.outpoint ∈ current.outputsConsumed ∧
        storage.findOutput ancestor.outpoint topic = some ancestor ∧
        remaining = remainingReferences current ancestor
| _ => True

/- What holds of a run that prunes a coin. -/
structure PruneTask.Sound
  (start : OutputStorage) (topic : JsString) (coins : List Outpoint) (storage : OutputStorage)
  (task : PruneTask) : Prop where
  coin : task.coin ∈ coins
  queue : ∀ output ∈ task.queue, (∃ old,
        start.findOutput output.outpoint topic = some old ∧ RowOf old output) ∧
        output.topic = topic ∧
        (output.consumedBy = [] → Prunes (start.relations topic) task.coin output.outpoint)
  phase : task.phase.Sound start topic task.coin storage

def StaleReference
  (topic : JsString) (storage : OutputStorage) (debt : Outpoint × Outpoint) : Prop :=
  storage.findOutput debt.1 topic = none ∧ ∃ output, storage.findOutput debt.2 topic =
        some output ∧ debt.1 ∈ output.consumedBy

/- The references that a run is about to remove. -/
def PruneTask.Owes (task : PruneTask) (debt : Outpoint × Outpoint) : Prop :=
  match task.phase with
  | .ancestors current rest => current.outpoint = debt.1 ∧ debt.2 ∈ rest
  | .update current ancestor _ rest =>
    current.outpoint = debt.1 ∧ (debt.2 = ancestor.outpoint ∨ debt.2 ∈ rest)
  | .failed _ => True
  | _ => False

structure PruneStart (start : OutputStorage) (topic : JsString) (coins : List Outpoint) : Prop where
  outputs : TopicRelations start topic
  unused :
    ∀ coin ∈ coins, ∀ output, start.findOutput coin topic = some output → output.consumedBy = []

-- Steps of a Pruning

variable {start storage : OutputStorage} {coins : List Outpoint} {coin : Outpoint}
variable {current ancestor old output : Output} {remaining rest : List Outpoint}

theorem RowOf.outputsConsumed_eq (hRow : RowOf old output) :
  output.outputsConsumed = old.outputsConsumed := by
  rw [hRow.eq]

/- The references are changed at one row. -/
theorem findOutput_updateConsumedBy
  (storage : OutputStorage) (outpoint other : Outpoint) (topic otherTopic : JsString)
  (consumedBy : List Outpoint) :
  (storage.updateConsumedBy outpoint topic consumedBy).findOutput other otherTopic =
    if other = outpoint ∧ otherTopic = topic then
      (storage.findOutput other otherTopic).map fun output =>
        { output with consumedBy := consumedBy }
    else storage.findOutput other otherTopic :=
  findOutput_updateOutput storage outpoint other topic otherTopic fun _ => ⟨rfl, rfl⟩

/- What is not stored is not stored after a change. -/
theorem findOutput_updateConsumedBy_eq_none
  {consumedBy : List Outpoint} (hNone : storage.findOutput other otherTopic = none) :
  (storage.updateConsumedBy outpoint topic consumedBy).findOutput other otherTopic = none := by
  rw [findOutput_updateConsumedBy, hNone]
  split_ifs <;> rfl

theorem touches_of_deletes (hPrune : Pruned start topic coins storage)
  (hDeletes : Deletes start topic coin storage current)
  (hIn : ancestor.outpoint ∈ current.outputsConsumed)
  (hFind : storage.findOutput ancestor.outpoint topic = some ancestor) :
  Touches (start.relations topic) coin
    ancestor.outpoint := by
  rcases hDeletes.row with ⟨old, hOld, hRow⟩
  rcases hPrune.rows ancestor.outpoint ancestor hFind with ⟨oldAncestor, hOldAnc, _⟩
  rw [hRow.outputsConsumed_eq] at hIn
  refine ⟨current.outpoint, old.relations, hDeletes.prunes, relations_of_findOutput hOld, hIn, ?_⟩
  rw [relations_of_findOutput hOldAnc]
  rfl

theorem coin_eq_of_touches
  (hShares : SharesNothing (start.relations topic) coins) {left right : Outpoint}
  (hLeft : left ∈ coins) (hRight : right ∈ coins)
  (hLeftTouches : Touches (start.relations topic) left outpoint)
  (hRightTouches : Touches (start.relations topic) right outpoint) : left = right := by
  by_contra hNe
  have hSymm : Std.Symm (PrunesApart (start.relations topic)) :=
    ⟨fun _ _ hApart outpoint hRight hLeft => hApart outpoint hLeft hRight⟩
  exact hShares.forall hLeft hRight hNe outpoint hLeftTouches hRightTouches

theorem Pruned.deleteOutput (hPrune : Pruned start topic coins storage) (hCoin : coin ∈ coins)
  (hPrunes : Prunes (start.relations topic) coin outpoint) :
  Pruned start topic coins (storage.deleteOutput outpoint topic) := by
  constructor
  · intro other output hFind
    rw [findOutput_deleteOutput] at hFind
    split_ifs at hFind
    exact hPrune.rows other output hFind
  · intro other output old consumer hFind hOld hIn hNotIn
    rw [findOutput_deleteOutput] at hFind ⊢
    split_ifs at hFind ⊢
    · rfl
    · exact hPrune.removed other output old consumer hFind hOld hIn hNotIn
  · intro other old hOld hNone
    rw [findOutput_deleteOutput] at hNone
    split_ifs at hNone with hSame
    · rw [hSame.1]
      exact ⟨coin, hCoin, hPrunes⟩
    · exact hPrune.deleted other old hOld hNone
  · intro other otherTopic hNe
    rw [findOutput_deleteOutput, if_neg fun hSame => hNe hSame.2]
    exact hPrune.others other otherTopic hNe
  · exact hPrune.applied

section

variable
    (hOuts : TopicRelations start topic)
    (hPrune : Pruned start topic coins storage)
    (hDeletes : Deletes start topic coin storage current)
    (hFind : storage.findOutput ancestor.outpoint topic = some ancestor)

include hOuts hPrune hDeletes hFind

theorem mem_remainingReferences_iff (consumer : Outpoint) :
  consumer ∈ remainingReferences current ancestor ↔
    consumer ∈ ancestor.consumedBy ∧ consumer ≠ current.outpoint := by
  unfold remainingReferences
  rw [mem_filter]
  apply and_congr_right
  intro hIn
  rcases hPrune.rows ancestor.outpoint ancestor hFind with ⟨old, hOld, hRow⟩
  rcases isSome_iff_exists.mp
    (hOuts.stored ancestor.outpoint old hOld consumer (hRow.subset hIn)) with
    ⟨row, hConsumer⟩
  rcases hDeletes.row with ⟨oldCurrent, hOldCur, _⟩
  rw [Bool.not_eq_true', ← Bool.not_eq_true, sameOutput_iff (hOuts.lower consumer row hConsumer)
    (hOuts.lower _ oldCurrent hOldCur)]

theorem Pruned.updateConsumedBy :
  Pruned start topic coins (storage.updateConsumedBy ancestor.outpoint topic
      (remainingReferences current ancestor)) := by
  have hRem := mem_remainingReferences_iff hOuts hPrune hDeletes hFind
  constructor
  · intro other output hOther
    rw [findOutput_updateConsumedBy] at hOther
    split_ifs at hOther with hSame
    · rw [hSame.1, hFind, map_some] at hOther
      cases hOther
      rcases hPrune.rows ancestor.outpoint ancestor hFind with ⟨old, hOld, hRow⟩
      rw [hSame.1]
      refine ⟨old, hOld, ?_, ?_⟩
      · rw [hRow.eq]
      · intro consumer hIn
        exact hRow.subset ((hRem consumer).mp hIn).1
    · exact hPrune.rows other output hOther
  · intro other output old consumer hOther hOld hIn hNotIn
    apply findOutput_updateConsumedBy_eq_none
    rw [findOutput_updateConsumedBy] at hOther
    split_ifs at hOther with hSame
    · rw [hSame.1, hFind, map_some] at hOther
      cases hOther
      by_cases hAnc : consumer ∈ ancestor.consumedBy
      · have hCur : consumer = current.outpoint := by
          by_contra hNe
          exact hNotIn ((hRem consumer).mpr ⟨hAnc, hNe⟩)
        rw [hCur]
        exact hDeletes.gone
      · rw [hSame.1] at hOld
        exact hPrune.removed ancestor.outpoint ancestor old consumer hFind hOld hIn hAnc
    · exact hPrune.removed other output old consumer hOther hOld hIn hNotIn
  · intro other old hOld hNone
    rw [findOutput_updateConsumedBy] at hNone
    split_ifs at hNone
    · rw [map_eq_none_iff] at hNone
      exact hPrune.deleted other old hOld hNone
    · exact hPrune.deleted other old hOld hNone
  · intro other otherTopic hNe
    rw [findOutput_updateConsumedBy, if_neg fun hSame => hNe hSame.2]
    exact hPrune.others other otherTopic hNe
  · exact hPrune.applied

end

-- Runs of Prunings

variable {task : PruneTask}

theorem PruneTask.Sound.find
  (hStart : PruneStart start topic coins) (hPrune : Pruned start topic coins storage)
  (hSound : task.Sound start topic coins storage) :
  (task.find topic storage).Sound start topic coins
    storage := by
  unfold PruneTask.find
  split
  · exact ⟨hSound.coin, hSound.queue, trivial⟩
  · next output hFind =>
      split
      · exact ⟨hSound.coin, hSound.queue, trivial⟩
      · refine ⟨hSound.coin, ?_, trivial⟩
        intro queued hQueued
        rw [mem_singleton.mp hQueued]
        rcases key_of_findOutput hFind with ⟨hKey, hTopic⟩
        rcases hPrune.rows task.coin output hFind with ⟨old, hOld, hRow⟩
        rw [hKey]
        refine ⟨⟨old, hOld, hRow⟩, hTopic, ?_⟩
        intro _
        apply Prunes.coin old.relations
        · exact relations_of_findOutput hOld
        · exact hStart.unused task.coin hSound.coin old hOld

theorem PruneTask.Sound.next
  (hPrune : Pruned start topic coins storage) (hSound : task.Sound start topic coins storage) :
  Pruned start topic coins (task.next storage).1 ∧
    (task.next storage).2.Sound start topic coins (task.next storage).1 := by
  unfold PruneTask.next
  split
  · exact ⟨hPrune, hSound.coin, hSound.queue, trivial⟩
  · next current queue hQueue =>
      have hRest : ∀ output ∈ queue, output ∈ task.queue := by
        intro output hIn
        rw [hQueue]
        exact mem_cons_of_mem _ hIn
      have hSame := hSound.phase
      split
      · exact ⟨hPrune, hSound.coin, hSound.queue, trivial⟩
      split
      · exact ⟨hPrune, hSound.coin, hSound.queue, trivial⟩
      split
      · refine ⟨hPrune, hSound.coin, ?_, hSame⟩
        intro output hIn
        exact hSound.queue output (hRest output hIn)
      split
      · refine ⟨hPrune, hSound.coin, ?_, hSame⟩
        intro output hIn
        exact hSound.queue output (hRest output hIn)
      · next hUsed =>
          have hHead : current ∈ task.queue := by
            rw [hQueue]
            exact mem_cons_self
          rcases hSound.queue current hHead with ⟨hRow, hTopic, hPrunes⟩
          have hUnused : current.consumedBy = [] := by
            by_contra hNe
            exact hUsed hNe
          have hDeleted := hPrune.deleteOutput hSound.coin (hPrunes hUnused)
          rw [hTopic]
          refine ⟨hDeleted, hSound.coin, ?_, ?_, ?_⟩
          · intro output hIn
            exact hSound.queue output (hRest output hIn)
          · refine ⟨hRow, hTopic, hPrunes hUnused, ?_⟩
            rw [findOutput_deleteOutput, if_pos ⟨rfl, rfl⟩]
          · exact List.Subset.refl _

theorem PruneTask.Sound.readAncestor
  {reference : Outpoint} (hSound : task.Sound start topic coins storage)
  (hPhase : task.phase = .ancestors current (reference :: rest)) :
  (task.ancestor storage current reference rest).Sound start topic coins storage := by
  have hCur := hSound.phase
  rw [hPhase] at hCur
  rcases hCur with ⟨hDeletes, hSubset⟩
  rw [cons_subset] at hSubset
  unfold PruneTask.ancestor
  dsimp only
  split
  · exact ⟨hSound.coin, hSound.queue, trivial⟩
  split
  · exact ⟨hSound.coin, hSound.queue, hDeletes, hSubset.2⟩
  · next ancestor hFind =>
      rw [hDeletes.topic_eq] at hFind
      split
      · exact ⟨hSound.coin, hSound.queue, trivial⟩
      split
      · exact ⟨hSound.coin, hSound.queue, hDeletes, hSubset.2⟩
      · have hKey := (key_of_findOutput hFind).1
        refine ⟨hSound.coin, hSound.queue, hDeletes, hSubset.2, ?_, ?_, rfl⟩
        · rw [hKey]
          exact hSubset.1
        · rw [hKey]
          exact hFind

section

variable (hOuts : TopicRelations start topic)

include hOuts

theorem prunes_ancestor (hShares : SharesNothing (start.relations topic) coins)
  (hCoin : coin ∈ coins) (hPrune : Pruned start topic coins storage)
  (hDeletes : Deletes start topic coin storage current)
  (hIn : ancestor.outpoint ∈ current.outputsConsumed)
  (hFind : storage.findOutput ancestor.outpoint topic = some ancestor)
  (hRem : remainingReferences current ancestor = []) : Prunes (start.relations topic) coin
    ancestor.outpoint := by
  have hTouches := touches_of_deletes hPrune hDeletes hIn hFind
  have hUpdated := hPrune.updateConsumedBy hOuts hDeletes hFind
  rcases hPrune.rows ancestor.outpoint ancestor hFind with ⟨old, hOld, _⟩
  rcases hDeletes.row with ⟨oldCurrent, hOldCur, hRow⟩
  rw [hRow.outputsConsumed_eq] at hIn
  have hUsed : current.outpoint ∈ old.consumedBy :=
    (hOuts.dual _ _ oldCurrent old hOldCur hOld).mp hIn
  apply Prunes.ancestor ancestor.outpoint old.relations
  · exact relations_of_findOutput hOld
  · exact ne_nil_of_mem hUsed
  · intro consumer hConsumer
    -- what used the ancestor is deleted
    have hGone : (storage.updateConsumedBy ancestor.outpoint topic (remainingReferences current
              ancestor)).findOutput consumer topic = none := by
      apply hUpdated.removed ancestor.outpoint
        { ancestor with
          consumedBy := remainingReferences current ancestor }
        old consumer
      · rw [findOutput_updateConsumedBy, if_pos ⟨rfl, rfl⟩, hFind, map_some]
      · exact hOld
      · exact hConsumer
      · rw [hRem]
        exact not_mem_nil
    rcases isSome_iff_exists.mp
      (hOuts.stored ancestor.outpoint old hOld consumer hConsumer) with
      ⟨row, hRowFind⟩
    rcases hUpdated.deleted consumer row hRowFind hGone with ⟨other, hOther, hPrunes⟩
    -- by the run of this coin
    have hConsumes : ancestor.outpoint ∈ row.outputsConsumed :=
      (hOuts.dual consumer _ row old hRowFind hOld).mpr hConsumer
    have hOtherTouches : Touches (start.relations topic) other
          ancestor.outpoint := by
      refine ⟨consumer, row.relations, hPrunes, relations_of_findOutput hRowFind, hConsumes, ?_⟩
      rw [relations_of_findOutput hOld]
      rfl
    rw [coin_eq_of_touches hShares hCoin hOther hTouches hOtherTouches]
    exact hPrunes

theorem PruneTask.Sound.update (hShares : SharesNothing (start.relations topic) coins)
  (hPrune : Pruned start topic coins storage) (hSound : task.Sound start topic coins storage)
  (hPhase : task.phase = .update current ancestor remaining rest) :
  (task.update current ancestor remaining rest).Sound start topic coins
    (storage.updateConsumedBy ancestor.outpoint topic remaining) := by
  have hCur := hSound.phase
  rw [hPhase] at hCur
  rcases hCur with ⟨hDeletes, hSubset, hIn, hFind, rfl⟩
  have hDeleted : Deletes start topic task.coin (storage.updateConsumedBy ancestor.outpoint topic
          (remainingReferences current ancestor))
        current :=
    ⟨hDeletes.row, hDeletes.topic_eq, hDeletes.prunes,
      findOutput_updateConsumedBy_eq_none hDeletes.gone⟩
  unfold PruneTask.update
  split
  · next hRem =>
      refine ⟨hSound.coin, ?_, hDeleted, hSubset⟩
      intro output hOut
      rcases mem_concat_iff.mp hOut with hOld | hNew
      · exact hSound.queue output hOld
      · rw [hNew]
        rcases hPrune.rows ancestor.outpoint ancestor hFind with ⟨old, hOld, hRow⟩
        refine ⟨⟨old, hOld, ?_, ?_⟩, ?_, ?_⟩
        · rw [hRow.eq]
        · rw [hRem]
          exact nil_subset _
        · exact (key_of_findOutput hFind).2
        · intro _
          have hPrunes :=
            prunes_ancestor hOuts hShares hSound.coin hPrune hDeletes hIn hFind hRem
          exact hPrunes
  · exact ⟨hSound.coin, hSound.queue, hDeleted, hSubset⟩

theorem ne_of_prunes (hPrune : Pruned start topic coins storage)
  (hApart : PrunesApart (start.relations topic) other coin)
  (hDeletes : Deletes start topic coin storage current)
  (hIn : ancestor.outpoint ∈ current.outputsConsumed)
  (hFind : storage.findOutput ancestor.outpoint topic = some ancestor)
  (hPrunes : Prunes (start.relations topic) other outpoint) : ancestor.outpoint ≠ outpoint := by
  rintro rfl
  have hTouches := touches_of_deletes hPrune hDeletes hIn hFind
  apply hApart ancestor.outpoint _ hTouches
  rcases hPrune.rows ancestor.outpoint ancestor hFind with ⟨old, hOld, _⟩
  rcases hDeletes.row with ⟨oldCurrent, hOldCur, hRow⟩
  rw [hRow.outputsConsumed_eq] at hIn
  have hUsed : current.outpoint ∈ old.consumedBy :=
    (hOuts.dual _ _ oldCurrent old hOldCur hOld).mp hIn
  refine ⟨current.outpoint, oldCurrent.relations, ?_, relations_of_findOutput hOldCur, hIn, ?_⟩
  · exact prunes_consumer hPrunes (relations_of_findOutput hOld) hUsed
  · rw [relations_of_findOutput hOld]
    rfl

/- A deletion by another run leaves a run sound. -/
theorem PruneTask.Sound.frameDelete (hPrune : Pruned start topic coins storage)
  (hSound : task.Sound start topic coins storage)
  (hApart : PrunesApart (start.relations topic) other task.coin)
  (hPrunes : Prunes (start.relations topic) other outpoint) :
  task.Sound start topic coins (storage.deleteOutput outpoint topic) := by
  refine ⟨hSound.coin, hSound.queue, ?_⟩
  have hPhase := hSound.phase
  have hDeletes :
      ∀ current, Deletes start topic task.coin storage current → Deletes start topic task.coin
        (storage.deleteOutput outpoint topic) current := by
    intro current hDeletes
    refine ⟨hDeletes.row, hDeletes.topic_eq, hDeletes.prunes, ?_⟩
    rw [findOutput_deleteOutput, hDeletes.gone]
    split_ifs <;> rfl
  cases hCase : task.phase with
  | ancestors current rest =>
    rw [hCase] at hPhase
    exact ⟨hDeletes current hPhase.1, hPhase.2⟩
  | update current ancestor remaining rest =>
    rw [hCase] at hPhase
    rcases hPhase with ⟨hCur, hSubset, hIn, hFind, hEq⟩
    refine ⟨hDeletes current hCur, hSubset, hIn, ?_, hEq⟩
    have hNe := ne_of_prunes hOuts hPrune hApart hCur hIn hFind hPrunes
    rw [findOutput_deleteOutput, if_neg fun hSame => hNe hSame.1]
    exact hFind
  | find => trivial
  | next => trivial
  | done => trivial
  | failed error => trivial

end

/- A change by another run leaves a run sound. -/
theorem PruneTask.Sound.frameUpdate
  {consumedBy : List Outpoint} (hPrune : Pruned start topic coins storage)
  (hSound : task.Sound start topic coins storage)
  (hApart : PrunesApart (start.relations topic) other task.coin)
  (hTouches : Touches (start.relations topic) other outpoint) :
  task.Sound start topic coins (storage.updateConsumedBy outpoint topic consumedBy) := by
  refine ⟨hSound.coin, hSound.queue, ?_⟩
  have hPhase := hSound.phase
  have hDeletes :
      ∀ current, Deletes start topic task.coin storage current → Deletes start topic task.coin
        (storage.updateConsumedBy outpoint topic consumedBy)
        current := by
    intro current hDeletes
    exact ⟨hDeletes.row, hDeletes.topic_eq, hDeletes.prunes,
      findOutput_updateConsumedBy_eq_none hDeletes.gone⟩
  cases hCase : task.phase with
  | ancestors current rest =>
    rw [hCase] at hPhase
    exact ⟨hDeletes current hPhase.1, hPhase.2⟩
  | update current ancestor remaining rest =>
    rw [hCase] at hPhase
    rcases hPhase with ⟨hCur, hSubset, hIn, hFind, hEq⟩
    refine ⟨hDeletes current hCur, hSubset, hIn, ?_, hEq⟩
    have hNe : ancestor.outpoint ≠ outpoint := by
      rintro rfl
      exact hApart ancestor.outpoint hTouches (touches_of_deletes hPrune hCur hIn hFind)
    rw [findOutput_updateConsumedBy, if_neg fun hSame => hNe hSame.1]
    exact hFind
  | find => trivial
  | next => trivial
  | done => trivial
  | failed error => trivial

theorem next_cases (storage : OutputStorage) (task : PruneTask) : (task.next storage).1 = storage ∨
    ∃ current ∈ task.queue, current.consumedBy = [] ∧ (task.next storage).1 =
        storage.deleteOutput current.outpoint current.topic ∧
      (task.next storage).2.phase = .ancestors current current.outputsConsumed := by
  unfold PruneTask.next
  split
  · exact .inl rfl
  · next current queue hQueue =>
      split
      · exact .inl rfl
      split
      · exact .inl rfl
      split
      · exact .inl rfl
      split
      · exact .inl rfl
      · next hUsed =>
          apply Or.inr
          refine ⟨current, ?_, ?_, rfl, rfl⟩
          · rw [hQueue]
            exact mem_cons_self
          · by_contra hNe
            exact hUsed hNe

theorem pruneStep_coin (storage : OutputStorage) (task : PruneTask) :
  (pruneStep topic storage task).2.coin = task.coin := by
  unfold pruneStep
  split
  · unfold PruneTask.find
    split
    · rfl
    · split <;> rfl
  · unfold PruneTask.next
    split
    · rfl
    · split
      · rfl
      split
      · rfl
      split
      · rfl
      split <;> rfl
  · unfold PruneTask.ancestor
    dsimp only
    split
    · rfl
    split
    · rfl
    split
    · rfl
    split <;> rfl
  · rfl
  · unfold PruneTask.update
    split <;> rfl
  · rfl
  · rfl

theorem pruneStep_stable (hStart : PruneStart start topic coins)
  (hShares : SharesNothing (start.relations topic) coins) :
  Interleaving.Stable (pruneStep topic) (Pruned start topic coins)
    (PruneTask.Sound start topic coins)
    fun task other =>
      PrunesApart (start.relations topic) task.coin
        other.coin := by
  constructor
  · intro storage task hPrune hSound
    unfold pruneStep
    split
    · exact hPrune
    · exact (hSound.next hPrune).1
    · exact hPrune
    · exact hPrune
    · next current ancestor remaining rest hPhase =>
        have hUpd := hSound.phase
        rw [hPhase] at hUpd
        rcases hUpd with ⟨hDeletes, _, _, hFind, rfl⟩
        rw [(key_of_findOutput hFind).2]
        exact hPrune.updateConsumedBy hStart.outputs hDeletes hFind
    · exact hPrune
    · exact hPrune
  · intro storage task hPrune hSound
    unfold pruneStep
    split
    · exact hSound.find hStart hPrune
    · exact (hSound.next hPrune).2
    · next current reference rest hPhase => exact hSound.readAncestor hPhase
    · exact ⟨hSound.coin, hSound.queue, trivial⟩
    · next current ancestor remaining rest hPhase =>
        have hUpd := hSound.phase
        rw [hPhase] at hUpd
        rw [(key_of_findOutput hUpd.2.2.2.1).2]
        exact hSound.update hStart.outputs hShares hPrune hPhase
    · exact hSound
    · exact hSound
  · intro storage task other hPrune hSound hOther hApart
    unfold pruneStep
    split
    · exact hOther
    · rcases next_cases storage task with hSame | ⟨current, hHead, hUnused, hDeleted, _⟩
      · rw [hSame]
        exact hOther
      · rcases hSound.queue current hHead with ⟨_, hTopic, hPrunes⟩
        rw [hDeleted, hTopic]
        exact hOther.frameDelete hStart.outputs hPrune hApart (hPrunes hUnused)
    · exact hOther
    · exact hOther
    · next current ancestor remaining rest hPhase =>
        have hUpd := hSound.phase
        rw [hPhase] at hUpd
        rcases hUpd with ⟨hDeletes, _, hIn, hFind, _⟩
        rw [(key_of_findOutput hFind).2]
        exact hOther.frameUpdate hPrune hApart (touches_of_deletes hPrune hDeletes hIn hFind)
    · exact hOther
    · exact hOther
  · intro storage task other hApart
    rw [pruneStep_coin]
    exact hApart
  · intro task other hApart outpoint hLeft hRight
    exact hApart outpoint hRight hLeft

-- References to Deleted Outputs

variable {start storage after : OutputStorage} {current ancestor output : Output}
variable {debt : Outpoint × Outpoint}

theorem next_settles
  (hStart : PruneStart start topic coins) (hPrune : Pruned start topic coins storage)
  (hSound : task.Sound start topic coins storage)
  (hDebt : StaleReference topic (task.next storage).1 debt) :
  StaleReference topic storage debt ∨ (task.next storage).2.Owes debt := by
  rcases next_cases storage task with hSame | ⟨current, hHead, _, hDeleted, hPhase⟩
  · rw [hSame] at hDebt
    exact .inl hDebt
  · rcases hSound.queue current hHead with ⟨⟨oldCurrent, hOldCur, hRow⟩, hTopic, _⟩
    rw [hDeleted, hTopic] at hDebt
    rcases hDebt with ⟨hGone, output, hFind, hIn⟩
    rw [findOutput_deleteOutput] at hGone hFind
    split_ifs at hFind
    by_cases hSame : debt.1 = current.outpoint
    · apply Or.inr
      unfold PruneTask.Owes
      rw [hPhase]
      refine ⟨hSame.symm, ?_⟩
      rcases hPrune.rows debt.2 output hFind with ⟨old, hOld, hOutRow⟩
      rw [hRow.outputsConsumed_eq]
      apply (hStart.outputs.dual current.outpoint debt.2 oldCurrent old hOldCur hOld).mpr
      rw [← hSame]
      exact hOutRow.subset hIn
    · rw [if_neg fun hBoth => hSame hBoth.1] at hGone
      exact .inl ⟨hGone, output, hFind, hIn⟩

theorem ancestor_settles {reference : Outpoint} (hSound : task.Sound start topic coins storage)
  (hPhase : task.phase = .ancestors current (reference :: rest))
  (hDebt : StaleReference topic storage debt) (hOwes : task.Owes debt) :
  (task.ancestor storage current reference rest).Owes
    debt := by
  have hCur := hSound.phase
  rw [hPhase] at hCur
  rcases hCur with ⟨hDeletes, _⟩
  unfold PruneTask.Owes at hOwes
  rw [hPhase] at hOwes
  rcases hOwes with ⟨hSame, hIn⟩
  rcases hDebt with ⟨_, output, hOut, hConsumer⟩
  unfold PruneTask.ancestor
  dsimp only
  split
  · trivial
  split
  · next hNone =>
      refine ⟨hSame, ?_⟩
      rcases mem_cons.mp hIn with rfl | hRest
      · rw [hDeletes.topic_eq, hOut] at hNone
        cases hNone
      · exact hRest
  · next ancestor hFind =>
      rw [hDeletes.topic_eq] at hFind
      have hKey := (key_of_findOutput hFind).1
      split
      · trivial
      split
      · next hLen =>
          refine ⟨hSame, ?_⟩
          rcases mem_cons.mp hIn with rfl | hRest
          · -- a reference of the ancestor is not left out
            rw [hFind] at hOut
            cases hOut
            unfold remainingReferences at hLen
            rw [length_filter_eq_length_iff] at hLen
            have hKept := hLen debt.1 hConsumer
            rw [← hSame, sameOutput_self] at hKept
            cases hKept
          · exact hRest
      · refine ⟨hSame, ?_⟩
        rw [hKey]
        exact mem_cons.mp hIn

theorem pruneStep_settles (hStart : PruneStart start topic coins) :
  Interleaving.Settles (pruneStep topic) (Pruned start topic coins)
    (PruneTask.Sound start topic coins) (StaleReference topic) PruneTask.Owes := by
  constructor
  · intro storage task debt hPrune hSound hDebt
    unfold pruneStep at hDebt ⊢
    split at hDebt
    · exact .inl hDebt
    · exact next_settles hStart hPrune hSound hDebt
    · exact .inl hDebt
    · exact .inl hDebt
    · next current ancestor remaining rest hPhase =>
        have hUpd := hSound.phase
        rw [hPhase] at hUpd
        rcases hUpd with ⟨hDeletes, _, _, hFind, rfl⟩
        rw [(key_of_findOutput hFind).2] at hDebt
        rcases hDebt with ⟨hGone, output, hOut, hIn⟩
        apply Or.inl
        rw [findOutput_updateConsumedBy] at hGone hOut
        constructor
        · split_ifs at hGone
          · exact map_eq_none_iff.mp hGone
          · exact hGone
        · split_ifs at hOut with hSame
          · rw [hSame.1, hFind, map_some] at hOut
            cases hOut
            rw [hSame.1]
            refine ⟨ancestor, hFind, ?_⟩
            exact mem_of_mem_filter hIn
          · exact ⟨output, hOut, hIn⟩
    · exact .inl hDebt
    · exact .inl hDebt
  · intro storage task debt hPrune hSound hDebt hOwes
    unfold pruneStep at hDebt ⊢
    split at hDebt
    · next hPhase =>
        unfold PruneTask.Owes at hOwes
        rw [hPhase] at hOwes
        exact hOwes.elim
    · next hPhase =>
        unfold PruneTask.Owes at hOwes
        rw [hPhase] at hOwes
        exact hOwes.elim
    · next current reference rest hPhase => exact ancestor_settles hSound hPhase hDebt hOwes
    · next current hPhase =>
        unfold PruneTask.Owes at hOwes
        rw [hPhase] at hOwes
        cases hOwes.2
    · next current ancestor remaining rest hPhase =>
        have hUpd := hSound.phase
        rw [hPhase] at hUpd
        rcases hUpd with ⟨hDeletes, _, _, hFind, rfl⟩
        unfold PruneTask.Owes at hOwes
        rw [hPhase] at hOwes
        rcases hOwes with ⟨hSame, hIn⟩
        rw [(key_of_findOutput hFind).2] at hDebt
        have hRest : debt.2 ∈ rest := by
          rcases hIn with hAnc | hRest
          · rcases hDebt with ⟨_, output, hOut, hConsumer⟩
            rw [hAnc, findOutput_updateConsumedBy, if_pos ⟨rfl, rfl⟩, hFind, map_some]
              at hOut
            cases hOut
            rw [mem_remainingReferences_iff hStart.outputs hPrune hDeletes hFind] at hConsumer
            exact absurd hSame.symm hConsumer.2
          · exact hRest
        unfold PruneTask.update
        split
        · exact ⟨hSame, hRest⟩
        · exact ⟨hSame, hRest⟩
    · next hPhase =>
        unfold PruneTask.Owes at hOwes
        rw [hPhase] at hOwes
        exact hOwes.elim
    · exact hOwes

theorem pruned_refl : Pruned start topic coins start where
  rows := fun _ output hFind => ⟨output, hFind, rfl, List.Subset.refl _⟩
  removed := by
    intro outpoint output old consumer hFind hOld hIn hNotIn
    rw [hFind] at hOld
    cases hOld
    exact absurd hIn hNotIn
  deleted := by
    intro outpoint old hOld hNone
    rw [hOld] at hNone
    cases hNone
  others := fun _ _ _ => rfl
  applied := rfl

theorem removesStaleOutputs_spec
  (hStart : PruneStart start topic coins) (hShares : SharesNothing (start.relations topic) coins)
  (hRemoves : RemovesStaleOutputs topic coins start after) :
  Pruned start topic coins after ∧ ∀ debt, ¬StaleReference topic after debt := by
  rcases hRemoves with ⟨tasks, hRun, hDone⟩
  have hHold : Interleaving.Holds (Pruned start topic coins) (PruneTask.Sound start topic coins)
        (fun task other => PrunesApart (start.relations topic) task.coin other.coin)
        { store := start
          tasks := coins.map fun coin => { coin := coin } } := by
    constructor
    · exact pruned_refl
    · intro task hTask
      rcases List.mem_map.mp hTask with ⟨coin, hCoin, rfl⟩
      refine ⟨hCoin, ?_, trivial⟩
      intro output hOut
      cases hOut
    · rw [pairwise_map]
      exact hShares
  have hCovered : Interleaving.Covered (StaleReference topic) PruneTask.Owes
        { store := start
          tasks := coins.map fun coin => { coin := coin } } := by
    rintro debt ⟨hGone, output, hFind, hIn⟩
    have hSome := hStart.outputs.stored debt.2 output hFind debt.1 hIn
    rw [hGone] at hSome
    cases hSome
  have hStable := pruneStep_stable hStart hShares
  constructor
  · exact (hHold.run hStable hRun).inv
  · apply Interleaving.no_debt hStable (pruneStep_settles hStart) hHold hCovered hRun
    intro task hTask debt hOwes
    unfold PruneTask.Owes at hOwes
    rw [hDone task hTask] at hOwes
    exact hOwes

theorem dualRelations_of_pruned (hStart : DualRelations start topic)
  (hPrune : Pruned start topic coins storage)
  (hSettle : ∀ debt, ¬StaleReference topic storage debt) : DualRelations storage topic := by
  constructor
  · intro left right leftOutput rightOutput hLeft hRight
    rcases hPrune.rows left leftOutput hLeft with ⟨oldLeft, hOldLeft, hLeftRow⟩
    rcases hPrune.rows right rightOutput hRight with ⟨oldRight, hOldRight, hRightRow⟩
    rw [hLeftRow.outputsConsumed_eq, hStart.dual left right oldLeft oldRight hOldLeft hOldRight]
    constructor
    · intro hOld
      by_contra hNew
      have hGone := hPrune.removed right rightOutput oldRight left hRight hOldRight hOld hNew
      rw [hLeft] at hGone
      cases hGone
    · intro hNew
      exact hRightRow.subset hNew
  · intro outpoint output hFind consumer hIn
    by_contra hNone
    rw [not_isSome_iff_eq_none] at hNone
    exact hSettle (consumer, outpoint) ⟨hNone, output, hFind, hIn⟩

theorem topicOutputs_of_pruned
  (hStart : TopicOutputs start topic) (hPrune : Pruned start topic coins storage)
  (hSettle : ∀ debt, ¬StaleReference topic storage debt) : TopicOutputs storage topic := by
  constructor
  · exact dualRelations_of_pruned hStart.toDualRelations hPrune hSettle
  · intro outpoint output hFind
    rcases hPrune.rows outpoint output hFind with ⟨old, hOld, _⟩
    exact hStart.lower outpoint old hOld
  · intro outpoint output hFind
    rcases hPrune.rows outpoint output hFind with ⟨old, hOld, _⟩
    rw [hPrune.applied]
    exact hStart.applied outpoint old hOld
  · intro outpoint output hFind consumed hIn
    rcases hPrune.rows outpoint output hFind with ⟨old, hOld, hRow⟩
    rw [hRow.outputsConsumed_eq] at hIn
    rw [hPrune.applied]
    exact hStart.history outpoint old hOld consumed hIn
  · intro outpoint output hFind hUnspent
    rcases hPrune.rows outpoint output hFind with ⟨old, hOld, hRow⟩
    have hSpent : old.spent = false := by rw [← hUnspent, hRow.eq]
    have hUnused := hStart.unspent outpoint old hOld hSpent
    have hSubset := hRow.subset
    rw [hUnused] at hSubset
    exact subset_nil.mp hSubset

end TsStack.Overlay
