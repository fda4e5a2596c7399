import TsStack.Overlay.GraphOrder
import TsStack.Overlay.OutputRelations

/-
  The relations of stored outputs over submissions.

  The outputs a topic admits consume the coins it retains,
  and the runs that update these coins add what the others
  add.  Every submission whose stale coins share nothing
  keeps the relations of all topics converse.
-/

-- Merged Relations

open List

namespace TsStack.Overlay

open OutputStorage

open Gasp (Outpoint)

def Lower (references : List Outpoint) : Prop :=
  ∀ reference ∈ references, toLowerCase reference.txid = reference.txid

theorem mem_setRelation_iff
  {relations : List Outpoint} {relation : Outpoint} (hLower : Lower (relation :: relations))
  (reference : Outpoint) :
  reference ∈ setRelation relations relation ↔ reference ∈ relations ∨ reference = relation := by
  have hHead := hLower relation mem_cons_self
  have hSame : ∀ other ∈ relations, (sameOutput relation other = true ↔ relation = other) := by
    intro other hOther
    exact sameOutput_iff hHead (hLower other (mem_cons_of_mem _ hOther))
  unfold setRelation
  split_ifs with hAny
  · rw [List.any_eq_true] at hAny
    rcases hAny with ⟨other, hOther, hEq⟩
    rw [hSame other hOther] at hEq
    have hKept :
        relations.map (fun other =>
              if sameOutput relation other then relation
              else other) =
          relations := by
      rw [map_congr_left (g := id)]
      · exact List.map_id relations
      · intro other hIn
        split_ifs with hNamed
        · exact (hSame other hIn).mp hNamed
        · rfl
    rw [hKept]
    constructor
    · exact .inl
    · rintro (hIn | rfl)
      · exact hIn
      · rw [hEq]
        exact hOther
  · simp

theorem mem_foldl_setRelation_iff
  {relations added : List Outpoint} (hLower : Lower (relations ++ added)) (reference : Outpoint) :
  reference ∈ added.foldl setRelation relations ↔ reference ∈ relations ∨ reference ∈ added := by
  induction added generalizing relations with
  | nil => simp
  | cons head added ih =>
    have hHead : Lower (head :: relations) := by
      intro other hOther
      apply hLower
      rcases mem_cons.mp hOther with rfl | hIn
      · simp
      · exact mem_append_left _ hIn
    have hSet := mem_setRelation_iff hHead
    have hRest : Lower (setRelation relations head ++ added) := by
      intro other hOther
      apply hLower
      rcases mem_append.mp hOther with hIn | hIn
      · rcases (hSet other).mp hIn with hOld | rfl
        · exact mem_append_left _ hOld
        · simp
      · simp [hIn]
    rw [foldl_cons, ih hRest, hSet, mem_cons, or_assoc]

theorem mem_mergeRelations_iff
  {consumedBy newUTXOs : List Outpoint} (hLower : Lower (consumedBy ++ newUTXOs))
  (reference : Outpoint) : reference ∈ mergeRelations consumedBy newUTXOs ↔
    reference ∈ consumedBy ∨ reference ∈ newUTXOs := by
  have hFold := @mem_foldl_setRelation_iff [] (consumedBy ++ newUTXOs) hLower reference
  unfold mergeRelations
  rw [hFold, mem_append]
  simp

-- Consumed Outputs

structure ExtendedRow (newUTXOs : List Outpoint) (old output : Output) : Prop where
  eq : output = { old with consumedBy := output.consumedBy }
  kept : old.consumedBy ⊆ output.consumedBy
  added : output.consumedBy ⊆ old.consumedBy ++ newUTXOs

structure Related
  (start : OutputStorage) (topic : JsString) (newUTXOs outputsConsumed : List Outpoint)
  (storage : OutputStorage) : Prop where
  rows : ∀ outpoint output, storage.findOutput outpoint topic = some output → ∃ old,
          start.findOutput outpoint topic = some old ∧ ExtendedRow newUTXOs old output
  stored : ∀ outpoint old, start.findOutput outpoint topic = some old →
        (storage.findOutput outpoint topic).isSome
  unrelated : ∀ outpoint, outpoint ∉ outputsConsumed →
      storage.findOutput outpoint topic = start.findOutput outpoint topic
  others : ∀ outpoint other, other ≠ topic → storage.findOutput outpoint other =
        start.findOutput outpoint other
  applied : storage.applied = start.applied

structure RelateTask.Sound
  (start : OutputStorage) (topic : JsString) (newUTXOs outputsConsumed : List Outpoint)
  (storage : OutputStorage) (task : RelateTask) : Prop where
  consumed : task.consumed ∈ outputsConsumed
  update : ∀ consumedBy, task.phase = .update consumedBy → newUTXOs ⊆ consumedBy ∧ ∀ old,
          start.findOutput task.consumed topic = some old → old.consumedBy ⊆ consumedBy ∧
              consumedBy ⊆ old.consumedBy ++ newUTXOs

structure MissingReference
  (topic : JsString) (newUTXOs outputsConsumed : List Outpoint) (storage : OutputStorage)
  (debt : Outpoint × Outpoint) : Prop where
  consumed : debt.1 ∈ outputsConsumed
  created : debt.2 ∈ newUTXOs
  missing : ∃ output, storage.findOutput debt.1 topic = some output ∧ debt.2 ∉ output.consumedBy

/- The references that a run is about to add. -/
def RelateTask.Owes (task : RelateTask) (debt : Outpoint × Outpoint) : Prop :=
  task.consumed = debt.1 ∧ task.phase ≠ .done

variable {start storage after : OutputStorage} {topic : JsString}
variable {newUTXOs outputsConsumed : List Outpoint} {task : RelateTask} {old output : Output}

def LowerRows (start : OutputStorage) (topic : JsString) : Prop :=
  ∀ outpoint old, start.findOutput outpoint topic = some old → Lower old.consumedBy

theorem RelateTask.Sound.find (hRows : LowerRows start topic) (hLower : Lower newUTXOs)
  (hRelated : Related start topic newUTXOs outputsConsumed storage)
  (hSound : task.Sound start topic newUTXOs outputsConsumed storage) :
  RelateTask.Sound start topic newUTXOs outputsConsumed storage
    { task with
      phase := task.find topic newUTXOs storage } := by
  refine ⟨hSound.consumed, ?_⟩
  intro consumedBy hPhase
  simp only at hPhase
  unfold RelateTask.find at hPhase
  split at hPhase
  · cases hPhase
  · next output hFind =>
      split at hPhase
      · cases hPhase
      split at hPhase
      · cases hPhase
      · rcases hRelated.rows task.consumed output hFind with ⟨old, hOld, hRow⟩
        have hAll : Lower (output.consumedBy ++ newUTXOs) := by
          intro reference hRef
          rcases mem_append.mp hRef with hIn | hIn
          · rcases mem_append.mp (hRow.added hIn) with hOldIn | hNew
            · exact hRows task.consumed old hOld reference hOldIn
            · exact hLower reference hNew
          · exact hLower reference hIn
        have hMem := mem_mergeRelations_iff hAll
        cases hPhase
        constructor
        · intro reference hIn
          exact (hMem reference).mpr (.inr hIn)
        · intro other hOther
          rw [hOld] at hOther
          cases hOther
          constructor
          · intro reference hIn
            exact (hMem reference).mpr (.inl (hRow.kept hIn))
          · intro reference hIn
            rcases (hMem reference).mp hIn with hOut | hNew
            · exact hRow.added hOut
            · exact mem_append_right _ hNew

theorem Related.update {consumed : Outpoint} {consumedBy : List Outpoint}
  (hRelated : Related start topic newUTXOs outputsConsumed storage)
  (hIn : consumed ∈ outputsConsumed)
  (hUpd : ∀ old, start.findOutput consumed topic = some old → old.consumedBy ⊆ consumedBy ∧
          consumedBy ⊆ old.consumedBy ++ newUTXOs) :
  Related start topic newUTXOs outputsConsumed (storage.updateConsumedBy consumed topic
      consumedBy) := by
  constructor
  · intro outpoint output hFind
    rw [findOutput_updateConsumedBy] at hFind
    split_ifs at hFind with hSame
    · rw [hSame.1, Option.map_eq_some_iff] at hFind
      rcases hFind with ⟨row, hRowFind, rfl⟩
      rcases hRelated.rows consumed row hRowFind with ⟨old, hOld, hRow⟩
      rcases hUpd old hOld with ⟨hKept, hAdded⟩
      rw [hSame.1]
      refine ⟨old, hOld, ?_, hKept, hAdded⟩
      rw [hRow.eq]
    · exact hRelated.rows outpoint output hFind
  · intro outpoint old hOld
    have hStore := hRelated.stored outpoint old hOld
    rw [findOutput_updateConsumedBy]
    split_ifs
    · rw [Option.isSome_map]
      exact hStore
    · exact hStore
  · intro outpoint hNotIn
    rw [findOutput_updateConsumedBy, if_neg]
    · exact hRelated.unrelated outpoint hNotIn
    · rintro ⟨rfl, _⟩
      exact hNotIn hIn
  · intro outpoint other hNe
    rw [findOutput_updateConsumedBy, if_neg fun hSame => hNe hSame.2]
    exact hRelated.others outpoint other hNe
  · exact hRelated.applied

theorem relateStep_stable (hRows : LowerRows start topic) (hLower : Lower newUTXOs) :
  Interleaving.Stable (relateStep topic newUTXOs) (Related start topic newUTXOs outputsConsumed)
    (RelateTask.Sound start topic newUTXOs outputsConsumed) fun _ _ => True := by
  constructor
  · intro storage task hRelated hSound
    unfold relateStep
    split
    · exact hRelated
    · next consumedBy hPhase =>
        exact hRelated.update hSound.consumed (hSound.update consumedBy hPhase).2
    · exact hRelated
    · exact hRelated
  · intro storage task hRelated hSound
    unfold relateStep
    split
    · have hFound := hSound.find hRows hLower hRelated
      exact hFound
    · refine ⟨hSound.consumed, ?_⟩
      intro consumedBy hPhase
      cases hPhase
    · exact ⟨hSound.consumed, hSound.update⟩
    · exact ⟨hSound.consumed, hSound.update⟩
  · intro storage task other _ _ hOther _
    exact ⟨hOther.consumed, hOther.update⟩
  · intro _ _ _ _
    trivial
  · intro _ _ _
    trivial

theorem relateStep_settles :
  Interleaving.Settles (relateStep topic newUTXOs) (Related start topic newUTXOs outputsConsumed)
    (RelateTask.Sound start topic newUTXOs outputsConsumed)
    (MissingReference topic newUTXOs outputsConsumed)
    RelateTask.Owes := by
  have hWritten : ∀ (storage : OutputStorage) consumed consumedBy debt, newUTXOs ⊆ consumedBy →
        MissingReference topic newUTXOs outputsConsumed
            (storage.updateConsumedBy consumed topic consumedBy) debt →
          consumed ≠ debt.1 ∧ MissingReference topic newUTXOs outputsConsumed storage debt := by
    rintro storage consumed consumedBy debt hAll ⟨hConsumed, hCreated, output, hFind, hMissing⟩
    rw [findOutput_updateConsumedBy] at hFind
    split_ifs at hFind with hSame
    · rw [Option.map_eq_some_iff] at hFind
      rcases hFind with ⟨row, _, rfl⟩
      exact absurd (hAll hCreated) hMissing
    · constructor
      · rintro rfl
        exact hSame ⟨rfl, rfl⟩
      · exact ⟨hConsumed, hCreated, output, hFind, hMissing⟩
  constructor
  · intro storage task debt _ hSound hDebt
    unfold relateStep at hDebt
    split at hDebt
    · exact .inl hDebt
    · next consumedBy hPhase =>
        have hAll := (hSound.update consumedBy hPhase).1
        exact .inl (hWritten _ _ _ _ hAll hDebt).2
    · exact .inl hDebt
    · exact .inl hDebt
  · intro storage task debt _ hSound hDebt hOwes
    rcases hOwes with ⟨hConsumed, hPhase⟩
    unfold relateStep at hDebt ⊢
    split at hDebt
    · refine ⟨hConsumed, ?_⟩
      rcases hDebt with ⟨_, _, output, hFind, _⟩
      simp only [RelateTask.find]
      rw [← hConsumed] at hFind
      simp only at hFind
      rw [hFind]
      split
      · next hNone => cases hNone
      · split
        · exact RelatePhase.noConfusion
        split
        · exact RelatePhase.noConfusion
        · exact RelatePhase.noConfusion
    · next consumedBy hUpd =>
        have hAll := (hSound.update consumedBy hUpd).1
        exact absurd hConsumed (hWritten _ _ _ _ hAll hDebt).1
    · next hDone => exact absurd hDone hPhase
    · exact ⟨hConsumed, hPhase⟩

-- Admitted Outputs

variable {admitted : List Output}

theorem updatesConsumedOutputs_spec (hRows : LowerRows start topic) (hLower : Lower newUTXOs)
  (hUpdates : UpdatesConsumedOutputs topic newUTXOs outputsConsumed start after) :
  Related start topic newUTXOs outputsConsumed after ∧ ∀ debt,
      ¬MissingReference topic newUTXOs outputsConsumed after
        debt := by
  rcases hUpdates with ⟨tasks, hRun, hDone⟩
  have hHold : Interleaving.Holds (Related start topic newUTXOs outputsConsumed)
        (RelateTask.Sound start topic newUTXOs outputsConsumed) (fun _ _ => True)
        { store := start
          tasks := outputsConsumed.map fun consumed => { consumed := consumed } } := by
    constructor
    · constructor
      · intro outpoint output hFind
        exact ⟨output, hFind, rfl, List.Subset.refl _, subset_append_left _ _⟩
      · intro outpoint old hOld
        rw [hOld]
        rfl
      · intro _ _
        rfl
      · intro _ _ _
        rfl
      · rfl
    · intro task hTask
      rcases List.mem_map.mp hTask with ⟨consumed, hConsumed, rfl⟩
      refine ⟨hConsumed, ?_⟩
      intro consumedBy hPhase
      cases hPhase
    · apply pairwise_of_forall
      intro _ _
      trivial
  have hCovered :
      Interleaving.Covered (MissingReference topic newUTXOs outputsConsumed) RelateTask.Owes
        { store := start
          tasks := outputsConsumed.map fun consumed => { consumed := consumed } } := by
    intro debt hDebt
    refine ⟨{ consumed := debt.1 }, ?_, rfl, RelatePhase.noConfusion⟩
    exact List.mem_map_of_mem hDebt.consumed
  have hStable := @relateStep_stable _ _ _ outputsConsumed hRows hLower
  constructor
  · exact (hHold.run hStable hRun).inv
  · apply Interleaving.no_debt hStable relateStep_settles hHold hCovered hRun
    rintro task hTask debt ⟨_, hPhase⟩
    exact hPhase (hDone task hTask)

theorem findOutput_foldl_insertOutput
  (admitted : List Output) (storage : OutputStorage) (outpoint : Outpoint) (topic : JsString) :
  (admitted.foldl insertOutput storage).findOutput outpoint topic =
    (storage.findOutput outpoint topic).or (admitted.find?
        (isOutput outpoint topic)) := by
  induction admitted generalizing storage with
  | nil => simp
  | cons head admitted ih =>
    rw [foldl_cons, ih, findOutput_insertOutput, Option.or_assoc, find?_cons]
    split_ifs with hHead
    · rw [hHead, Option.some_or]
    · rw [Bool.not_eq_true] at hHead
      rw [hHead, Option.none_or]

theorem applied_foldl_insertOutput (admitted : List Output) (storage : OutputStorage) :
  (admitted.foldl insertOutput storage).applied = storage.applied := by
  induction admitted generalizing storage with
  | nil => rfl
  | cons head admitted ih =>
    rw [foldl_cons, ih]
    unfold insertOutput
    split_ifs <;> rfl

structure NewOutputs
  (start : OutputStorage) (topic txid : JsString) (outputsConsumed : List Outpoint)
  (admitted : List Output) : Prop where
  lower : toLowerCase txid = txid
  fresh : (txid, topic) ∉ start.applied
  rows : ∀ output ∈ admitted, output.outpoint.txid = txid ∧ output.topic = topic ∧
        output.outputsConsumed = outputsConsumed ∧ output.consumedBy = []
  spent : ∀ consumed ∈ outputsConsumed, ∀ output,
      start.findOutput consumed topic = some output → output.spent = true
  consumed : ∀ consumed ∈ outputsConsumed, (consumed.txid, topic) ∈ start.applied

variable {outpoint : Outpoint}

theorem row_cases (hFind :
    (admitted.foldl insertOutput start).findOutput outpoint topic = some output) :
  start.findOutput outpoint topic = some output ∨ (start.findOutput outpoint topic = none ∧
      output ∈ admitted ∧ output.outpoint = outpoint) := by
  rw [findOutput_foldl_insertOutput, Option.or_eq_some_iff] at hFind
  rcases hFind with hOld | ⟨hNone, hNew⟩
  · exact .inl hOld
  · apply Or.inr
    refine ⟨hNone, mem_of_find?_eq_some hNew, ?_⟩
    have hKey := find?_some hNew
    simp only [isOutput, decide_eq_true_eq] at hKey
    exact hKey.1

theorem NewOutputs.ne_of_stored {txid : JsString} (hStart : TopicOutputs start topic)
  (hNew : NewOutputs start topic txid outputsConsumed admitted)
  (hFind : start.findOutput outpoint topic = some output) : outpoint.txid ≠ txid := by
  intro hSame
  apply hNew.fresh
  rw [← hSame]
  exact hStart.applied outpoint output hFind

structure Admits (start : OutputStorage) (topic txid : JsString) (outputsConsumed : List Outpoint)
  (admitted : List Output) (after : OutputStorage) : Prop where
  outputs : TopicOutputs start topic
  created : NewOutputs start topic txid outputsConsumed admitted
  related : Related (admitted.foldl OutputStorage.insertOutput start) topic
      (admitted.map (·.outpoint)) outputsConsumed after
  complete : ∀ debt, ¬MissingReference topic (admitted.map (·.outpoint)) outputsConsumed after debt

variable {txid : JsString}

section

variable (hAdmits : Admits start topic txid outputsConsumed admitted after)

include hAdmits

theorem Admits.row_cases (hFind : after.findOutput outpoint topic = some output) :
  (∃ old, start.findOutput outpoint topic = some old ∧
      output.outputsConsumed = old.outputsConsumed ∧ output.spent = old.spent ∧
      ∀ consumer, consumer ∈ output.consumedBy ↔
          consumer ∈ old.consumedBy ∨ (outpoint ∈ outputsConsumed ∧
              consumer ∈ admitted.map (·.outpoint))) ∨
    (outpoint.txid = txid ∧ outpoint ∈ admitted.map (·.outpoint) ∧
      output.outputsConsumed = outputsConsumed ∧ output.consumedBy = []) := by
  rcases hAdmits.related.rows outpoint output hFind with ⟨middle, hMiddle, hRow⟩
  have hUnrelated := hAdmits.related.unrelated outpoint
  rw [hFind, hMiddle] at hUnrelated
  rcases Overlay.row_cases hMiddle with hOld | ⟨_, hIn, hKey⟩
  · apply Or.inl
    refine ⟨middle, hOld, ?_, ?_, ?_⟩
    · rw [hRow.eq]
    · rw [hRow.eq]
    · intro consumer
      constructor
      · intro hConsumer
        by_cases hRelated : outpoint ∈ outputsConsumed
        · rcases mem_append.mp (hRow.added hConsumer) with hKept | hAdded
          · exact .inl hKept
          · exact .inr ⟨hRelated, hAdded⟩
        · cases hUnrelated hRelated
          exact .inl hConsumer
      · rintro (hKept | ⟨hRelated, hAdded⟩)
        · exact hRow.kept hKept
        · by_contra hMissing
          exact hAdmits.complete (outpoint, consumer) ⟨hRelated, hAdded, output, hFind, hMissing⟩
  · apply Or.inr
    rcases hAdmits.created.rows middle hIn with ⟨hTxid, hTopic, hConsumed, hUnused⟩
    rw [hKey] at hTxid
    -- a new output is not consumed by its own transaction
    have hNotIn : outpoint ∉ outputsConsumed := by
      intro hConsumes
      apply hAdmits.created.fresh
      rw [← hTxid]
      exact hAdmits.created.consumed outpoint hConsumes
    cases hUnrelated hNotIn
    refine ⟨hTxid, ?_, hConsumed, hUnused⟩
    rw [← hKey]
    exact List.mem_map_of_mem hIn

theorem Admits.isSome_of_start (hSome : (start.findOutput outpoint topic).isSome) :
  (after.findOutput outpoint topic).isSome := by
  rcases Option.isSome_iff_exists.mp hSome with ⟨output, hFind⟩
  apply hAdmits.related.stored outpoint output
  rw [findOutput_foldl_insertOutput, hFind, Option.some_or]

theorem Admits.isSome_of_admitted
  (hIn : outpoint ∈ admitted.map (·.outpoint)) : (after.findOutput outpoint topic).isSome := by
  rcases List.mem_map.mp hIn with ⟨row, hRow, rfl⟩
  have hStore :
      ((admitted.foldl insertOutput start).findOutput row.outpoint topic).isSome := by
    rw [findOutput_foldl_insertOutput, Option.isSome_or, Bool.or_eq_true]
    apply Or.inr
    rw [find?_isSome]
    refine ⟨row, hRow, ?_⟩
    have hTopic := (hAdmits.created.rows row hRow).2.1
    simp [isOutput, hTopic]
  rcases Option.isSome_iff_exists.mp hStore with ⟨old, hOld⟩
  exact hAdmits.related.stored row.outpoint old hOld

end

theorem NewOutputs.txid_of_admitted (hNew : NewOutputs start topic txid outputsConsumed admitted)
  (hIn : outpoint ∈ admitted.map (·.outpoint)) : outpoint.txid = txid := by
  rcases List.mem_map.mp hIn with ⟨row, hRow, rfl⟩
  exact (hNew.rows row hRow).1

section

variable (hAdmits : Admits start topic txid outputsConsumed admitted after)
include hAdmits

theorem Admits.dualRelations : DualRelations after topic := by
  have hStart := hAdmits.outputs
  have hNew := hAdmits.created
  constructor
  · intro left right leftOutput rightOutput hLeft hRight
    rcases hAdmits.row_cases hLeft with ⟨oldLeft, hOldLeft, hConsumed, _, _⟩ |
      ⟨hLeftTxid, hLeftIn, hConsumed, _⟩
    · have hLeftNe := hNew.ne_of_stored hStart hOldLeft
      rw [hConsumed]
      rcases hAdmits.row_cases hRight with ⟨oldRight, hOldRight, _, _, hConsumers⟩ |
        ⟨hRightTxid, _, _, hUnused⟩
      · rw [hConsumers, hStart.dual left right oldLeft oldRight hOldLeft hOldRight]
        constructor
        · exact .inl
        · rintro (hOld | ⟨_, hAdded⟩)
          · exact hOld
          · exact absurd (hNew.txid_of_admitted hAdded) hLeftNe
      · rw [hUnused]
        constructor
        · intro hIn
          exfalso
          apply hNew.fresh
          rw [← hRightTxid]
          exact hStart.history left oldLeft hOldLeft right hIn
        · intro hIn
          cases hIn
    · rw [hConsumed]
      rcases hAdmits.row_cases hRight with ⟨oldRight, hOldRight, _, _, hConsumers⟩ |
        ⟨hRightTxid, _, _, hUnused⟩
      · rw [hConsumers]
        constructor
        · intro hIn
          exact .inr ⟨hIn, hLeftIn⟩
        · rintro (hOld | ⟨hIn, _⟩)
          · rcases Option.isSome_iff_exists.mp
              (hStart.stored right oldRight hOldRight left hOld) with
              ⟨row, hRow⟩
            exact absurd hLeftTxid (hNew.ne_of_stored hStart hRow)
          · exact hIn
      · rw [hUnused]
        constructor
        · intro hIn
          exfalso
          apply hNew.fresh
          rw [← hRightTxid]
          exact hNew.consumed right hIn
        · intro hIn
          cases hIn
  · intro outpoint output hFind consumer hIn
    rcases hAdmits.row_cases hFind with ⟨old, hOld, _, _, hConsumers⟩ | ⟨_, _, _, hUnused⟩
    · rcases (hConsumers consumer).mp hIn with hOldIn | ⟨_, hAdded⟩
      · exact hAdmits.isSome_of_start (hStart.stored outpoint old hOld consumer hOldIn)
      · exact hAdmits.isSome_of_admitted hAdded
    · rw [hUnused] at hIn
      cases hIn

theorem Admits.applied_eq : after.applied = start.applied :=
  hAdmits.related.applied.trans (applied_foldl_insertOutput admitted start)

theorem Admits.topicOutputs : TopicOutputs (after.insertAppliedTransaction txid topic)
    topic := by
  have hStart := hAdmits.outputs
  have hNew := hAdmits.created
  have hApplied := hAdmits.applied_eq
  have hOld : ∀ pair, pair ∈ start.applied → pair ∈ (after.insertAppliedTransaction txid
            topic).applied := by
    intro pair hIn
    rw [← hApplied] at hIn
    exact mem_append_left _ hIn
  constructor
  · exact ⟨hAdmits.dualRelations.dual, hAdmits.dualRelations.stored⟩
  · intro outpoint output hFind
    rcases hAdmits.row_cases hFind with ⟨old, hOldFind, _⟩ | ⟨hTxid, _⟩
    · exact hStart.lower outpoint old hOldFind
    · rw [hTxid]
      exact hNew.lower
  · intro outpoint output hFind
    rcases hAdmits.row_cases hFind with ⟨old, hOldFind, _⟩ | ⟨hTxid, _⟩
    · exact hOld _ (hStart.applied outpoint old hOldFind)
    · rw [hTxid]
      exact mem_append_right _ (mem_singleton.mpr rfl)
  · intro outpoint output hFind consumed hIn
    rcases hAdmits.row_cases hFind with ⟨old, hOldFind, hConsumed, _⟩ | ⟨_, _, hConsumed, _⟩
    · rw [hConsumed] at hIn
      exact hOld _ (hStart.history outpoint old hOldFind consumed hIn)
    · rw [hConsumed] at hIn
      exact hOld _ (hNew.consumed consumed hIn)
  · intro outpoint output hFind hUnspent
    rcases hAdmits.row_cases hFind with ⟨old, hOldFind, _, hSpent, hConsumers⟩ | ⟨_, _, _, hUnused⟩
    · rw [hSpent] at hUnspent
      have hUnused := hStart.unspent outpoint old hOldFind hUnspent
      rw [eq_nil_iff_forall_not_mem]
      intro consumer hIn
      rcases (hConsumers consumer).mp hIn with hOldIn | ⟨hConsumed, _⟩
      · rw [hUnused] at hOldIn
        cases hOldIn
      · rw [hNew.spent outpoint hConsumed old hOldFind] at hUnspent
        cases hUnspent
    · exact hUnused

end

-- Topics

structure SameOutputs (topic : JsString) (storage after : OutputStorage) : Prop where
  rows : ∀ outpoint, after.findOutput outpoint topic = storage.findOutput outpoint topic
  applied : ∀ txid, (txid, topic) ∈ after.applied ↔ (txid, topic) ∈ storage.applied

structure ReadyTopic (storage : OutputStorage) (parsed : ParsedTransaction)
  (validation : TopicValidation) : Prop where
  lower : toLowerCase parsed.txid = parsed.txid
  fresh : (parsed.txid, validation.topic) ∉ storage.applied
  unused : ∀ coin ∈ staleCoins parsed validation, ∀ output,
      storage.findOutput coin validation.topic = some output → output.consumedBy = []
  spent : ∀ coin ∈ consumedCoins parsed validation, ∀ output,
      storage.findOutput coin validation.topic = some output → output.spent = true
  applied :
    ∀ coin ∈ consumedCoins parsed validation, (coin.txid, validation.topic) ∈ storage.applied
  shares : SharesNothing (storage.relations validation.topic) (staleCoins parsed validation)

variable {storage after : OutputStorage} {parsed : ParsedTransaction} {validation : TopicValidation}
variable {validations : List TopicValidation}

theorem SameOutputs.relations (hSame : SameOutputs topic storage after) :
  after.relations topic = storage.relations topic := by
  funext outpoint
  unfold OutputStorage.relations
  rw [hSame.rows]

theorem SameOutputs.topicOutputs
  (hSame : SameOutputs topic storage after) (hOuts : TopicOutputs storage topic) :
  TopicOutputs after topic := by
  have hDual := hOuts.dual
  have hStore := hOuts.stored
  have hLower := hOuts.lower
  have hApplied := hOuts.applied
  have hHistory := hOuts.history
  have hUnspent := hOuts.unspent
  simp only [← hSame.rows, ← hSame.applied] at hDual hStore hLower hApplied hHistory hUnspent
  exact ⟨⟨hDual, hStore⟩, hLower, hApplied, hHistory, hUnspent⟩

theorem SameOutputs.readyTopic (hSame : SameOutputs validation.topic storage after)
  (hReady : ReadyTopic storage parsed validation) : ReadyTopic after parsed validation := by
  rcases hReady with ⟨hLower, hFresh, hUnused, hSpent, hApplied, hShares⟩
  simp only [← hSame.rows] at hUnused hSpent
  simp only [← hSame.applied] at hFresh hApplied
  rw [← hSame.relations] at hShares
  exact ⟨hLower, hFresh, hUnused, hSpent, hApplied, hShares⟩

theorem row_of_admittedOutputs (hIn : output ∈ admittedOutputs parsed validation) :
  output.outpoint.txid = parsed.txid ∧ output.topic = validation.topic ∧ output.outputsConsumed =
          consumedCoins parsed validation ∧
        output.consumedBy = [] := by
  unfold admittedOutputs at hIn
  rw [mem_filterMap] at hIn
  rcases hIn with ⟨index, _, hRow⟩
  unfold admittedOutput at hRow
  split at hRow
  · cases hRow
  · rw [Option.map_eq_some_iff] at hRow
    rcases hRow with ⟨satoshis, _, rfl⟩
    exact ⟨rfl, rfl, rfl, rfl⟩

theorem AppliesTopic.topicOutputs (hApplies : AppliesTopic parsed validation storage after)
  (hOuts : TopicOutputs storage validation.topic) (hReady : ReadyTopic storage parsed validation) :
  TopicOutputs after validation.topic ∧ ∀ other, other ≠ validation.topic →
      SameOutputs other storage after := by
  rcases hApplies with ⟨removed, related, hRemoves, hUpdates, rfl⟩
  rcases removesStaleOutputs_spec ⟨hOuts.topicRelations, hReady.unused⟩ hReady.shares hRemoves with
    ⟨hPrune, hSettle⟩
  have hRem := topicOutputs_of_pruned hOuts hPrune hSettle
  have hNew : NewOutputs removed validation.topic parsed.txid (consumedCoins parsed validation)
        (admittedOutputs parsed validation) := by
    constructor
    · exact hReady.lower
    · rw [hPrune.applied]
      exact hReady.fresh
    · intro output hIn
      exact row_of_admittedOutputs hIn
    · intro consumed hIn output hFind
      rcases hPrune.rows consumed output hFind with ⟨old, hOld, hRow⟩
      rw [hRow.eq]
      exact hReady.spent consumed hIn old hOld
    · intro consumed hIn
      rw [hPrune.applied]
      exact hReady.applied consumed hIn
  have hLower : Lower ((admittedOutputs parsed validation).map (·.outpoint)) := by
    intro outpoint hIn
    rw [hNew.txid_of_admitted hIn]
    exact hReady.lower
  have hRows :
      LowerRows ((admittedOutputs parsed validation).foldl insertOutput removed)
        validation.topic := by
    intro outpoint old hOld consumer hIn
    rcases row_cases hOld with hStore | ⟨_, hNewIn, _⟩
    · rcases Option.isSome_iff_exists.mp (hRem.stored outpoint old hStore consumer hIn)
        with ⟨row, hRow⟩
      exact hRem.lower consumer row hRow
    · rw [(row_of_admittedOutputs hNewIn).2.2.2] at hIn
      cases hIn
  rcases updatesConsumedOutputs_spec hRows hLower hUpdates with ⟨hRelated, hComplete⟩
  have hAdmits : Admits removed validation.topic parsed.txid (consumedCoins parsed validation)
        (admittedOutputs parsed validation) related :=
    ⟨hRem, hNew, hRelated, hComplete⟩
  constructor
  · exact hAdmits.topicOutputs
  · intro other hNe
    constructor
    · intro outpoint
      have hKept := hRelated.others outpoint other hNe
      rw [findOutput_foldl_insertOutput, hPrune.others outpoint other hNe] at hKept
      have hNone :
          (admittedOutputs parsed validation).find? (isOutput outpoint other) =
            none := by
        rw [find?_eq_none]
        intro row hIn hKey
        simp only [isOutput, decide_eq_true_eq] at hKey
        apply hNe
        rw [← hKey.2]
        exact (row_of_admittedOutputs hIn).2.1
      rw [hNone, Option.or_none] at hKept
      exact hKept
    · intro txid
      have hSame : (txid, other) ≠ (parsed.txid, validation.topic) :=
        fun hEq => hNe (congrArg Prod.snd hEq)
      unfold insertAppliedTransaction
      rw [mem_append, hAdmits.applied_eq, hPrune.applied, mem_singleton]
      constructor
      · rintro (hIn | hEq)
        · exact hIn
        · exact absurd hEq hSame
      · exact .inl

theorem AppliesTopics.topicOutputs (hApplies : AppliesTopics parsed validations storage after)
  (hNodup : (validations.map (·.topic)).Nodup) (hOuts : ∀ topic, TopicOutputs storage topic)
  (hReady : ∀ validation ∈ validations, ReadyTopic storage parsed validation) (topic : JsString) :
  TopicOutputs after topic := by
  induction hApplies with
  | nil storage => exact hOuts topic
  | cons validation rest storage middle after hFst _ ih =>
    rw [map_cons, nodup_cons] at hNodup
    rcases hFst.topicOutputs (hOuts validation.topic)
      (hReady validation mem_cons_self) with
      ⟨hTopic, hOth⟩
    apply ih hNodup.2
    · intro other
      by_cases hSame : other = validation.topic
      · rw [hSame]
        exact hTopic
      · exact (hOth other hSame).topicOutputs (hOuts other)
    · intro next hNext
      have hNe : next.topic ≠ validation.topic := by
        intro hEq
        apply hNodup.1
        rw [← hEq]
        exact List.mem_map_of_mem hNext
      exact (hOth next.topic hNe).readyTopic (hReady next (mem_cons_of_mem _ hNext))

-- Spent Outputs

structure Marks (storage marked : OutputStorage) : Prop where
  rows : ∀ outpoint topic row, marked.findOutput outpoint topic = some row → ∃ old,
          storage.findOutput outpoint topic = some old ∧ row.relations = old.relations ∧
              (old.spent = true → row.spent = true)
  stored : ∀ outpoint topic old, storage.findOutput outpoint topic = some old →
        (marked.findOutput outpoint topic).isSome
  applied : marked.applied = storage.applied

def SpentAt (storage : OutputStorage) (topic : JsString) (output : Output) : Prop :=
  ∀ row, storage.findOutput output.outpoint topic = some row → row.spent = true

variable {storage marked after : OutputStorage} {topic txid : JsString}

theorem Marks.refl (storage : OutputStorage) : Marks storage storage where
  rows := fun _ _ row hFind => ⟨row, hFind, rfl, id⟩
  stored := fun _ _ old hOld => by
    rw [hOld]
    rfl
  applied := rfl

theorem Marks.trans (hFst : Marks storage marked) (hSnd : Marks marked after) :
  Marks storage after := by
  constructor
  · intro outpoint topic row hFind
    rcases hSnd.rows outpoint topic row hFind with ⟨middle, hMiddle, hSame, hSpent⟩
    rcases hFst.rows outpoint topic middle hMiddle with ⟨old, hOld, hOldSame, hOldSpent⟩
    exact ⟨old, hOld, hSame.trans hOldSame, fun hIs => hSpent (hOldSpent hIs)⟩
  · intro outpoint topic old hOld
    rcases Option.isSome_iff_exists.mp (hFst.stored outpoint topic old hOld) with
      ⟨middle, hMiddle⟩
    exact hSnd.stored outpoint topic middle hMiddle
  · exact hSnd.applied.trans hFst.applied

theorem Marks.spentAt (hMarks : Marks storage marked) (hSpent : SpentAt storage topic output) :
  SpentAt marked topic output := by
  intro row hFind
  rcases hMarks.rows output.outpoint topic row hFind with ⟨old, hOld, _, hStays⟩
  exact hStays (hSpent old hOld)

theorem markUTXOAsSpent_spec
  (hMark : storage.markUTXOAsSpent output.outpoint topic txid = .ok marked) :
  Marks storage marked ∧ SpentAt marked topic output := by
  unfold markUTXOAsSpent at hMark
  split at hMark
  · cases hMark
  · next found hFound =>
      split_ifs at hMark with hSpent hBy
      · cases hMark
        refine ⟨.refl storage, ?_⟩
        intro row hFind
        rw [hFound] at hFind
        cases hFind
        exact hSpent
      · cases hMark
        have hUpdated := fun other otherTopic =>
          @findOutput_updateOutput storage output.outpoint other topic otherTopic (fun output =>
              { output with
                spent := true
                spentBy := some txid })
            fun _ => ⟨rfl, rfl⟩
        refine ⟨⟨?_, ?_, rfl⟩, ?_⟩
        · intro other otherTopic row hFind
          rw [hUpdated] at hFind
          split_ifs at hFind
          · rw [Option.map_eq_some_iff] at hFind
            rcases hFind with ⟨old, hOld, rfl⟩
            exact ⟨old, hOld, rfl, fun _ => rfl⟩
          · exact ⟨row, hFind, rfl, id⟩
        · intro other otherTopic old hOld
          rw [hUpdated, hOld]
          split_ifs <;> rfl
        · intro row hFind
          rw [hUpdated, if_pos ⟨rfl, rfl⟩, Option.map_eq_some_iff] at hFind
          rcases hFind with ⟨old, _, rfl⟩
          rfl

theorem foldlM_markUTXOAsSpent_spec {outputs : List Output} (hMark :
    outputs.foldlM (fun storage output => storage.markUTXOAsSpent output.outpoint topic txid)
      storage = .ok marked) :
  Marks storage marked ∧ ∀ output ∈ outputs, SpentAt marked topic output := by
  induction outputs generalizing storage with
  | nil =>
    cases hMark
    refine ⟨.refl _, ?_⟩
    intro output hIn
    cases hIn
  | cons head outputs ih =>
    rw [foldlM_cons, bind_eq_ok_iff] at hMark
    rcases hMark with ⟨middle, hHead, hRest⟩
    rcases markUTXOAsSpent_spec hHead with ⟨hFst, hSpent⟩
    rcases ih hRest with ⟨hSnd, hOth⟩
    refine ⟨hFst.trans hSnd, ?_⟩
    intro output hIn
    rcases mem_cons.mp hIn with rfl | hTail
    · exact hSnd.spentAt hSpent
    · exact hOth output hTail

theorem markPreviousOutputsSpent_spec
  (hMark : markPreviousOutputsSpent parsed validations storage = .ok marked) :
  Marks storage marked ∧ ∀ validation ∈ validations, ∀ output ∈ validation.previousOutputs,
        SpentAt marked validation.topic output := by
  unfold markPreviousOutputsSpent at hMark
  induction validations generalizing storage with
  | nil =>
    cases hMark
    refine ⟨.refl _, ?_⟩
    intro validation hIn
    cases hIn
  | cons head validations ih =>
    rw [foldlM_cons, bind_eq_ok_iff] at hMark
    rcases hMark with ⟨middle, hHead, hRest⟩
    rcases foldlM_markUTXOAsSpent_spec hHead with ⟨hFst, hSpent⟩
    rcases ih hRest with ⟨hSnd, hOth⟩
    refine ⟨hFst.trans hSnd, ?_⟩
    intro validation hIn output hOut
    rcases mem_cons.mp hIn with rfl | hTail
    · exact hSnd.spentAt (hSpent output hOut)
    · exact hOth validation hTail output hOut

theorem Marks.relations (hMarks : Marks storage marked) :
  marked.relations topic = storage.relations topic := by
  funext outpoint
  unfold OutputStorage.relations
  cases hFind : marked.findOutput outpoint topic with
  | none =>
    cases hOld : storage.findOutput outpoint topic with
    | none => rfl
    | some old =>
      have hStore := hMarks.stored outpoint topic old hOld
      rw [hFind] at hStore
      cases hStore
  | some row =>
    rcases hMarks.rows outpoint topic row hFind with ⟨old, hOld, hSame, _⟩
    rw [hOld, Option.map_some, Option.map_some, hSame]

theorem Marks.topicOutputs (hMarks : Marks storage marked) (hOuts : TopicOutputs storage topic) :
  TopicOutputs marked topic := by
  have hConsumed : ∀ {left right : Output}, left.relations = right.relations →
          left.outputsConsumed = right.outputsConsumed ∧ left.consumedBy = right.consumedBy := by
    intro left right hSame
    unfold Output.relations at hSame
    rw [Relations.mk.injEq] at hSame
    exact hSame
  constructor
  · constructor
    · intro left right leftRow rightRow hLeft hRight
      rcases hMarks.rows left topic leftRow hLeft with ⟨oldLeft, hOldLeft, hLeftSame, _⟩
      rcases hMarks.rows right topic rightRow hRight with ⟨oldRight, hOldRight, hRightSame, _⟩
      rw [(hConsumed hLeftSame).1, (hConsumed hRightSame).2]
      exact hOuts.dual left right oldLeft oldRight hOldLeft hOldRight
    · intro outpoint row hFind consumer hIn
      rcases hMarks.rows outpoint topic row hFind with ⟨old, hOld, hSame, _⟩
      rw [(hConsumed hSame).2] at hIn
      rcases Option.isSome_iff_exists.mp (hOuts.stored outpoint old hOld consumer hIn) with
        ⟨found, hFound⟩
      exact hMarks.stored consumer topic found hFound
  · intro outpoint row hFind
    rcases hMarks.rows outpoint topic row hFind with ⟨old, hOld, _⟩
    exact hOuts.lower outpoint old hOld
  · intro outpoint row hFind
    rcases hMarks.rows outpoint topic row hFind with ⟨old, hOld, _⟩
    rw [hMarks.applied]
    exact hOuts.applied outpoint old hOld
  · intro outpoint row hFind consumed hIn
    rcases hMarks.rows outpoint topic row hFind with ⟨old, hOld, hSame, _⟩
    rw [(hConsumed hSame).1] at hIn
    rw [hMarks.applied]
    exact hOuts.history outpoint old hOld consumed hIn
  · intro outpoint row hFind hUnspent
    rcases hMarks.rows outpoint topic row hFind with ⟨old, hOld, hSame, hStays⟩
    rw [(hConsumed hSame).2]
    apply hOuts.unspent outpoint old hOld
    by_contra hSpent
    rw [Bool.not_eq_false] at hSpent
    rw [hStays hSpent] at hUnspent
    cases hUnspent

variable {storage : OutputStorage} {submission : Submission} {topic : JsString}

structure ValidTopic (storage : OutputStorage) (parsed : ParsedTransaction)
  (validation : TopicValidation) : Prop where
  fresh : (parsed.txid, validation.topic) ∉ storage.applied
  coins : ∀ index ∈ validation.previousCoins, ∀ coin,
      parsed.transaction.inputs[index]?.bind previousOutpoint = some coin →
        ∃ output ∈ validation.previousOutputs, output.outpoint = coin ∧ output.spent = false ∧
            storage.findOutput coin validation.topic = some output

theorem findPreviousOutput_eq_some {input : TransactionInput} {coin : Outpoint}
  (hFind : findPreviousOutput storage topic input = .ok (some output))
  (hCoin : previousOutpoint input = some coin) : output.outpoint = coin ∧ output.spent = false ∧
    storage.findOutput coin topic = some output := by
  unfold findPreviousOutput at hFind
  rw [hCoin] at hFind
  simp only at hFind
  split at hFind
  · cases hFind
  · next found hUnspent =>
      rcases bind_eq_ok_iff.mp hFind with ⟨_, _, hEq⟩
      cases hEq
      unfold findUnspentOutput at hUnspent
      rw [Option.filter_eq_some_iff] at hUnspent
      rcases hUnspent with ⟨hStore, hNotSpent⟩
      refine ⟨(key_of_findOutput hStore).1, ?_, hStore⟩
      simpa using hNotSpent

theorem validTopic_of_validateTopicSubmission
  (hValid : validateTopicSubmission storage submission parsed topic = .ok validation)
  (hFst : validation.isDupe = false) :
  validation.topic = topic ∧ ValidTopic storage parsed validation := by
  unfold validateTopicSubmission at hValid
  split_ifs at hValid with hApplied
  · cases hValid
    cases hFst
  · rw [bind_eq_ok_iff] at hValid
    rcases hValid with ⟨previousOutputs, hOuts, hValid⟩
    rw [bind_eq_ok_iff] at hValid
    rcases hValid with ⟨instructions, _, hValid⟩
    rw [bind_eq_ok_iff] at hValid
    rcases hValid with ⟨admissible, _, hEq⟩
    cases hEq
    refine ⟨rfl, ?_, ?_⟩
    · simpa [doesAppliedTransactionExist] using hApplied
    · intro index hIdx coin hCoin
      have hAll := forall₂_of_mapM hOuts
      rw [List.mem_map] at hIdx
      rcases hIdx with ⟨⟨found, _⟩, hFound, rfl⟩
      rw [mem_filter, mk_mem_zipIdx_iff_getElem?] at hFound
      rcases hFound with ⟨hGet, hSome⟩
      rcases Option.isSome_iff_exists.mp hSome with ⟨output, rfl⟩
      rcases Option.bind_eq_some_iff.mp hCoin with ⟨input, hInput, hOutpoint⟩
      have hRead : findPreviousOutput storage topic input = .ok (some output) := by
        rcases List.getElem?_eq_some_iff.mp hInput with ⟨hInputs, hInputGet⟩
        rcases List.getElem?_eq_some_iff.mp hGet with ⟨hLen, hOutGet⟩
        have hBoth := (forall₂_iff_get.mp hAll).2 _ hInputs hLen
        rw [get_eq_getElem, get_eq_getElem, hInputGet, hOutGet] at hBoth
        exact hBoth
      rcases findPreviousOutput_eq_some hRead hOutpoint with ⟨hKey, hUnspent, hStore⟩
      refine ⟨output, ?_, hKey, hUnspent, hStore⟩
      simp only [mem_filterMap]
      exact ⟨some output, mem_of_getElem? hGet, rfl⟩

-- Runs

/- Some transaction is submitted and the call returns. -/
def SubmitStep (storage after : OutputStorage) : Prop :=
  ∃ submission parsed, Submits submission parsed storage after

/-
  In each topic, no output is touched by the prunings of two
  of the stale coins of the transaction.
-/
def SafeSubmission
  (submission : Submission) (parsed : ParsedTransaction) (storage : OutputStorage) : Prop :=
  ∀ validation ∈ acceptedValidations storage submission parsed,
    SharesNothing (storage.relations validation.topic) (staleCoins parsed validation)

/- A submission whose stale coins share nothing. -/
def SafeSubmit (storage after : OutputStorage) : Prop :=
  ∃ submission parsed, SafeSubmission submission parsed storage ∧
      Submits submission parsed storage after

variable {storage marked after : OutputStorage}

theorem toLower_digitChar (digit : Fin 16) :
  (Nat.digitChar digit).toLower = Nat.digitChar digit := by
  revert digit
  decide

theorem toLowerCase_toHex (bytes : Bytes) : toLowerCase (toHex bytes) = toHex bytes := by
  unfold toLowerCase toHex
  rw [map_flatMap]
  congr 1
  funext byte
  have hHigh : byte.toNat / 16 < 16 := by
    have hByte := byte.toNat_lt
    omega
  have hLow : byte.toNat % 16 < 16 := Nat.mod_lt _ (by decide)
  unfold hexByteString
  rw [map_cons, map_singleton, toLower_digitChar ⟨_, hHigh⟩, toLower_digitChar ⟨_, hLow⟩]

theorem lower_of_parseTransaction
  {rawTx : JsString} (hParse : parseTransaction rawTx = .ok parsed) :
  toLowerCase parsed.txid = parsed.txid := by
  unfold parseTransaction at hParse
  rw [bind_eq_ok_iff] at hParse
  rcases hParse with ⟨bytes, _, hParse⟩
  rw [bind_eq_ok_iff] at hParse
  rcases hParse with ⟨transaction, _, hEq⟩
  cases hEq
  exact toLowerCase_toHex _

theorem mem_acceptedValidations (hIn : validation ∈ acceptedValidations storage submission parsed) :
  ∃ topic ∈ submission.topics,
    validateTopicSubmission storage submission parsed topic = .ok validation ∧
      validation.isDupe = false := by
  unfold acceptedValidations at hIn
  rw [mem_filterMap] at hIn
  rcases hIn with ⟨topic, hTopic, hValid⟩
  split at hValid
  · cases hValid
  · next found hFound =>
      split_ifs at hValid with hDupe
      cases hValid
      refine ⟨topic, hTopic, hFound, ?_⟩
      simpa using hDupe

theorem nodup_acceptedValidations (hNodup : submission.topics.Nodup) :
  ((acceptedValidations storage submission parsed).map (·.topic)).Nodup := by
  apply List.Nodup.sublist _ hNodup
  unfold acceptedValidations
  induction submission.topics with
  | nil => exact List.Sublist.refl _
  | cons first topics ih =>
    rw [filterMap_cons]
    split
    · exact ih.cons first
    · next validation hValid =>
        split at hValid
        · cases hValid
        · next found hFound =>
            split_ifs at hValid with hDupe
            cases hValid
            have hTopic := (validTopic_of_validateTopicSubmission hFound (by simpa using hDupe)).1
            rw [map_cons, hTopic]
            exact ih.cons_cons first

theorem coin_of_coinOutpoints {keep : Nat → Bool} {coin : Outpoint}
  (hCoin : coin ∈ coinOutpoints parsed.transaction (validation.previousCoins.filter keep)) :
  ∃ index ∈ validation.previousCoins, parsed.transaction.inputs[index]?.bind
      previousOutpoint = some coin := by
  unfold coinOutpoints at hCoin
  rw [mem_filterMap] at hCoin
  rcases hCoin with ⟨index, hIdx, hEq⟩
  exact ⟨index, mem_of_mem_filter hIdx, hEq⟩

theorem readyTopic_of_marks (hOuts : TopicOutputs storage validation.topic)
  (hLower : toLowerCase parsed.txid = parsed.txid) (hValid : ValidTopic storage parsed validation)
  (hMarks : Marks storage marked)
  (hSpent : ∀ output ∈ validation.previousOutputs, SpentAt marked validation.topic output)
  (hShares : SharesNothing (storage.relations validation.topic) (staleCoins parsed validation)) :
  ReadyTopic marked parsed validation := by
  constructor
  · exact hLower
  · rw [hMarks.applied]
    exact hValid.fresh
  · intro coin hCoin row hFind
    rcases coin_of_coinOutpoints hCoin with ⟨index, hIdx, hInput⟩
    rcases hValid.coins index hIdx coin hInput with ⟨output, _, _, hUnspent, hStore⟩
    rcases hMarks.rows coin validation.topic row hFind with ⟨old, hOld, hSame, _⟩
    rw [hStore] at hOld
    cases hOld
    have hUnused := hOuts.unspent coin output hStore hUnspent
    have hConsumedBy := congrArg Relations.consumedBy hSame
    exact hConsumedBy.trans hUnused
  · intro coin hCoin row hFind
    rcases coin_of_coinOutpoints hCoin with ⟨index, hIdx, hInput⟩
    rcases hValid.coins index hIdx coin hInput with ⟨output, hIn, rfl, _⟩
    exact hSpent output hIn row hFind
  · intro coin hCoin
    rcases coin_of_coinOutpoints hCoin with ⟨index, hIdx, hInput⟩
    rcases hValid.coins index hIdx coin hInput with ⟨output, _, _, _, hStore⟩
    rw [hMarks.applied]
    exact hOuts.applied coin output hStore
  · rw [hMarks.relations]
    exact hShares

theorem topicOutputs_of_safe_submit
  (hStep : SafeSubmit storage after) (hOuts : ∀ topic, TopicOutputs storage topic)
  (topic : JsString) : TopicOutputs after topic := by
  rcases hStep with ⟨submission, parsed, hSafe, hParsed, hNodup, marked, hMark, hApplies⟩
  rcases markPreviousOutputsSpent_spec hMark with ⟨hMarks, hSpent⟩
  apply hApplies.topicOutputs (nodup_acceptedValidations hNodup)
  · intro other
    exact hMarks.topicOutputs (hOuts other)
  · intro validation hIn
    rcases mem_acceptedValidations hIn with ⟨first, _, hValid, hDupe⟩
    exact readyTopic_of_marks (hOuts validation.topic) (lower_of_parseTransaction hParsed)
      (validTopic_of_validateTopicSubmission hValid hDupe).2 hMarks (hSpent validation hIn)
      (hSafe validation hIn)

/-
  In a run of submissions whose stale coins share nothing,
  the relations of every topic are converse.
-/
theorem dualRelations_of_safe_run
  (hRun : Relation.ReflTransGen SafeSubmit {} storage) (topic : JsString) :
  DualRelations storage topic := by
  have hAll : ∀ topic, TopicOutputs storage topic := by
    induction hRun with
    | refl =>
      intro topic
      constructor
      · constructor
        · intro left right leftRow rightRow hLeft
          cases hLeft
        · intro outpoint row hFind
          cases hFind
      · intro outpoint row hFind
        cases hFind
      · intro outpoint row hFind
        cases hFind
      · intro outpoint row hFind
        cases hFind
      · intro outpoint row hFind
        cases hFind
    | tail _ hStep ih => exact topicOutputs_of_safe_submit hStep ih
  exact (hAll topic).toDualRelations

-- Scheduled Submissions

def runTopic (parsed : ParsedTransaction) (prunes relates : List Nat) (storage : OutputStorage)
  (validation : TopicValidation) : Option OutputStorage :=
  let pruned := Interleaving.schedule (pruneStep validation.topic) prunes
      { store := storage
        tasks := (staleCoins parsed validation).map fun coin => { coin := coin } }
  let related := Interleaving.schedule (relateStep validation.topic
        ((admittedOutputs parsed validation).map (·.outpoint)))
      relates
      { store := (admittedOutputs parsed validation).foldl OutputStorage.insertOutput pruned.store
        tasks := (consumedCoins parsed validation).map fun consumed => { consumed := consumed } }
  if (∀ task ∈ pruned.tasks, task.phase = .done) ∧ ∀ task ∈ related.tasks, task.phase = .done then
    some (related.store.insertAppliedTransaction parsed.txid validation.topic)
  else none

def runSubmission (submission : Submission) (prunes relates : List Nat)
  (storage : OutputStorage) : Option OutputStorage :=
  match parseTransaction submission.rawTx with
  | .error _ => none
  | .ok parsed =>
    let validations := acceptedValidations storage submission parsed
    match markPreviousOutputsSpent parsed validations storage with
    | .error _ => none
    | .ok marked =>
      if submission.topics.Nodup then validations.foldlM (runTopic parsed prunes relates) marked
      else none

variable {storage after : OutputStorage} {prunes relates : List Nat}

theorem appliesTopic_of_runTopic
  (hRun : runTopic parsed prunes relates storage validation = some after) :
  AppliesTopic parsed validation storage after := by
  unfold runTopic at hRun
  simp only at hRun
  split_ifs at hRun with hDone
  cases hRun
  exact ⟨_, _, ⟨_, Interleaving.run_schedule prunes, hDone.1⟩,
    ⟨_, Interleaving.run_schedule relates, hDone.2⟩, rfl⟩

theorem appliesTopics_of_foldlM
  (hRun : validations.foldlM (runTopic parsed prunes relates) storage = some after) :
  AppliesTopics parsed validations storage after := by
  induction validations generalizing storage with
  | nil =>
    cases hRun
    exact .nil _
  | cons validation validations ih =>
    rw [foldlM_cons, Option.bind_eq_bind, Option.bind_eq_some_iff] at hRun
    rcases hRun with ⟨middle, hFst, hRest⟩
    exact .cons validation validations storage middle after
      (appliesTopic_of_runTopic hFst) (ih hRest)

theorem submits_of_runSubmission
  (hRun : runSubmission submission prunes relates storage = some after) :
  ∃ parsed, parseTransaction submission.rawTx = .ok parsed ∧
    Submits submission parsed storage after := by
  unfold runSubmission at hRun
  split at hRun
  · cases hRun
  · next parsed hParsed =>
      simp only at hRun
      split at hRun
      · cases hRun
      · next marked hMark =>
          split_ifs at hRun with hNodup
          exact ⟨parsed, hParsed, hParsed, hNodup, marked, hMark, appliesTopics_of_foldlM hRun⟩

-- Coins with a Common Ancestor

/- A transaction, with what the topic `tm` decides. -/
def plainSubmission (bytes : Bytes) (outputsToAdmit coinsToRetain : List Nat) : Submission where
  rawTx := toHex bytes
  topics := [['t', 'm']]
  identifyAdmissibleOutputs := fun _ _ =>
    .ok
      { outputsToAdmit := outputsToAdmit
        coinsToRetain := coinsToRetain }

def childBytes : Bytes :=
  plainBytes [(parentHash, 0)] 2

def childHash : Bytes :=
  [61, 247, 240, 66, 90, 5, 224, 35, 89, 173, 62, 224, 57,
    202, 228, 117, 1, 164, 17, 195, 3, 63, 167, 84, 247, 145, 156, 228, 195, 96, 207, 144]

def consumerBytes (indexes : List UInt8) : Bytes :=
  plainBytes (indexes.map fun index => (childHash, index)) 1

def submitted (submission : Submission) (prunes relates : List Nat)
  (storage : OutputStorage) : OutputStorage :=
  (runSubmission submission prunes relates storage).getD storage

def parentStorage : OutputStorage :=
  submitted (plainSubmission parentBytes [0] []) [] [] {}

def childStorage : OutputStorage :=
  submitted (plainSubmission childBytes [0, 1] [0]) [] [0, 0] parentStorage

/- The prunings of two coins, with their steps in turn. -/
def inTurn : List Nat :=
  [0, 1, 0, 1, 0, 1, 0, 1, 0, 1, 0, 1, 0, 1]

def consumedStorage (indexes : List UInt8) : OutputStorage :=
  submitted (plainSubmission (consumerBytes indexes) [] []) inTurn [] childStorage

section

variable (hReturns : (runSubmission submission prunes relates storage).isSome = true)

include hReturns

theorem submits_submitted :
  ∃ parsed, parseTransaction submission.rawTx = .ok parsed ∧ Submits submission parsed storage
      (submitted submission prunes relates storage) := by
  rcases Option.isSome_iff_exists.mp hReturns with ⟨after, hRun⟩
  unfold submitted
  rw [hRun, Option.getD_some]
  exact submits_of_runSubmission hRun

theorem submitStep_submitted :
  SubmitStep storage (submitted submission prunes relates storage) := by
  rcases submits_submitted hReturns with ⟨parsed, _, hSubmits⟩
  exact ⟨submission, parsed, hSubmits⟩

end

theorem childStorage_returns :
  (runSubmission (plainSubmission parentBytes [0] []) [] [] {}).isSome = true ∧
    (runSubmission (plainSubmission childBytes [0, 1] [0])
      [] [0, 0] parentStorage).isSome = true := by
  decide +kernel

/- Two coins with one ancestor are pruned together. -/
theorem consumedStorage_returns :
  (runSubmission (plainSubmission (consumerBytes [0, 1]) [] []) inTurn
      [] childStorage).isSome = true := by
  decide +kernel

/- A stored output names one that is deleted. -/
def hasStaleConsumer (storage : OutputStorage) (topic : JsString) : Bool :=
  storage.outputs.any fun output =>
    (storage.findOutput output.outpoint topic).any fun found =>
        found.consumedBy.any fun consumer => (storage.findOutput consumer topic).isNone

theorem consumedStorage_stale : hasStaleConsumer (consumedStorage [0, 1]) ['t', 'm'] =
    true := by
  decide +kernel

theorem not_dual_of_staleConsumer (hStale : hasStaleConsumer storage topic = true) :
  ¬DualRelations storage topic := by
  intro hDual
  unfold hasStaleConsumer at hStale
  rw [List.any_eq_true] at hStale
  rcases hStale with ⟨output, _, hFound⟩
  rw [Option.any_eq_true] at hFound
  rcases hFound with ⟨found, hFind, hConsumer⟩
  rw [List.any_eq_true] at hConsumer
  rcases hConsumer with ⟨consumer, hIn, hNone⟩
  have hSome := hDual.stored output.outpoint found hFind consumer hIn
  rw [Option.isNone_iff_eq_none] at hNone
  rw [hNone] at hSome
  cases hSome

theorem not_dualRelations_of_run :
  ¬∀ storage, Relation.ReflTransGen SubmitStep {} storage →
        ∀ topic, DualRelations storage topic := by
  intro hAll
  have hParent : SubmitStep {} parentStorage := submitStep_submitted childStorage_returns.1
  have hChild : SubmitStep parentStorage childStorage := submitStep_submitted childStorage_returns.2
  have hConsumer : SubmitStep childStorage (consumedStorage [0, 1]) :=
    submitStep_submitted consumedStorage_returns
  have hRun : Relation.ReflTransGen SubmitStep {} (consumedStorage [0, 1]) :=
    .tail (.tail (.single hParent) hChild) hConsumer
  exact not_dual_of_staleConsumer consumedStorage_stale
      (hAll (consumedStorage [0, 1]) hRun ['t', 'm'])

def hasSingleStale (submission : Submission) (storage : OutputStorage) : Bool :=
  match parseTransaction submission.rawTx with
  | .error _ => true
  | .ok parsed =>
    (acceptedValidations storage submission parsed).all
      fun validation => (staleCoins parsed validation).length ≤ 1

theorem safeSubmit_submitted
  (hReturns : (runSubmission submission prunes relates storage).isSome = true)
  (hSingle : hasSingleStale submission storage = true) :
  SafeSubmit storage (submitted submission prunes relates storage) := by
  rcases submits_submitted hReturns with ⟨parsed, hParsed, hSubmits⟩
  refine ⟨submission, parsed, ?_, hSubmits⟩
  intro validation hIn
  unfold hasSingleStale at hSingle
  rw [hParsed] at hSingle
  simp only [List.all_eq_true, decide_eq_true_eq] at hSingle
  have hLen := hSingle validation hIn
  unfold SharesNothing
  match hCoins : staleCoins parsed validation with
  | [] => exact .nil
  | [coin] => exact pairwise_singleton _ _
  | first :: second :: rest =>
    rw [hCoins] at hLen
    simp at hLen

theorem consumedStorage_single :
  (runSubmission (plainSubmission (consumerBytes [0]) [] []) inTurn []
      childStorage).isSome = true ∧
    hasSingleStale (plainSubmission parentBytes [0] []) {} = true ∧
    hasSingleStale (plainSubmission childBytes [0, 1] [0]) parentStorage = true ∧
    hasSingleStale (plainSubmission (consumerBytes [0]) [] []) childStorage = true := by
  decide +kernel

theorem dualRelations_of_safe_run_sibling : DualRelations (consumedStorage [0]) ['t', 'm'] :=
  dualRelations_of_safe_run (.tail (.tail (.single
          (safeSubmit_submitted childStorage_returns.1 consumedStorage_single.2.1))
        (safeSubmit_submitted childStorage_returns.2 consumedStorage_single.2.2.1))
      (safeSubmit_submitted consumedStorage_single.1 consumedStorage_single.2.2.2))
    ['t', 'm']

end TsStack.Overlay
