import TsStack.Overlay.OutputRelations

/-
  One run of `deleteUTXODeep`: it deletes the output and the
  ancestors that only deleted outputs use, and no other.
-/

-- The queue

open List

namespace TsStack.Overlay

open Gasp (Outpoint)

def PrunePhase.Active : PrunePhase → Prop
| .find => False
| .failed _ => False
| _ => True

def MayGo (start : OutputStorage) (topic : JsString) (coin outpoint : Outpoint) : Prop :=
  outpoint = coin ∨ ∃ old, start.findOutput outpoint topic = some old ∧ old.consumedBy ≠ []

/- What is processed is gone, and what nothing uses any more is queued. -/
structure PruneTask.Live
  (start : OutputStorage) (topic : JsString) (storage : OutputStorage) (task : PruneTask) :
  Prop where
  found : task.phase = .find → storage = start ∧ task.queue = []
  unused : ∀ row ∈ task.queue, row.consumedBy = []
  processed : ∀ outpoint ∈ task.processed, toLowerCase outpoint.txid = outpoint.txid ∧
    storage.findOutput outpoint topic = none
  queued : task.phase.Active → ∀ outpoint output, storage.findOutput outpoint topic = some output →
    output.consumedBy = [] → MayGo start topic task.coin outpoint →
      ∃ row ∈ task.queue, row.outpoint = outpoint
  done : task.phase = .done → task.queue = []

variable {start storage after : OutputStorage} {topic : JsString} {coin : Outpoint}
variable {coins : List Outpoint} {task : PruneTask} {output current ancestor : Output}
variable {remaining rest : List Outpoint}

theorem PruneTask.Live.find (hStart : PruneStart start topic coins) (hCoin : task.coin ∈ coins)
  (hPhase : task.phase = .find) (hLive : task.Live start topic storage) :
  (task.find topic storage).Live start topic storage := by
  rcases hLive.found hPhase with ⟨rfl, hQueue⟩
  -- an output that something uses is as it was
  have hUsed : ∀ outpoint output, storage.findOutput outpoint topic = some output →
      output.consumedBy = [] → MayGo storage topic task.coin outpoint → outpoint = task.coin := by
    rintro outpoint output hFind hUnused (hCoin | ⟨old, hOld, hSome⟩)
    · exact hCoin
    · rw [hFind] at hOld
      cases hOld
      exact absurd hUnused hSome
  unfold PruneTask.find
  split
  · next hNone =>
    refine ⟨nofun, hLive.unused, hLive.processed, fun _ outpoint output hFind hUnused hMay => ?_,
      fun _ => hQueue⟩
    rw [hUsed outpoint output hFind hUnused hMay, hNone] at hFind
    cases hFind
  · next output hFound =>
    split
    · exact ⟨nofun, hLive.unused, hLive.processed, False.elim, nofun⟩
    · refine ⟨nofun, fun row hRow => ?_, hLive.processed,
        fun _ outpoint other hFind hUnused hMay => ?_, nofun⟩
      · rw [mem_singleton.mp hRow]
        exact hStart.unused task.coin hCoin output hFound
      · rw [hUsed outpoint other hFind hUnused hMay]
        exact ⟨output, mem_singleton_self _, (key_of_findOutput hFound).1⟩

theorem PruneTask.Live.next (hOuts : TopicRelations start topic)
  (hSound : task.Sound start topic coins storage) (hPhase : task.phase = .next)
  (hLive : task.Live start topic storage) :
  (task.next storage).2.Live start topic (task.next storage).1 := by
  have hQueued := hLive.queued (by rw [hPhase]; trivial)
  unfold PruneTask.next
  split
  · next hQueue =>
    exact ⟨nofun, hLive.unused, hLive.processed, fun _ => hQueued, fun _ => hQueue⟩
  · next current queue hQueue =>
    have hUnused := hLive.unused
    rw [hQueue] at hUnused
    rcases hSound.queue current (hQueue ▸ mem_cons_self) with ⟨⟨old, hOld, -⟩, hTopic, -⟩
    have hLower := hOuts.lower current.outpoint old hOld
    have hTail := fun row hRow => hUnused row (mem_cons_of_mem current hRow)
    have hRest : ∀ outpoint output, storage.findOutput outpoint topic = some output →
        output.consumedBy = [] → MayGo start topic task.coin outpoint →
          outpoint ≠ current.outpoint → ∃ row ∈ queue, row.outpoint = outpoint := by
      intro outpoint output hFind hNone hMay hNe
      rcases hQueued outpoint output hFind hNone hMay with ⟨row, hRow, hKey⟩
      rw [hQueue] at hRow
      rcases mem_cons.mp hRow with rfl | hIn
      · exact absurd hKey.symm hNe
      · exact ⟨row, hIn, hKey⟩
    split
    · exact ⟨nofun, hLive.unused, hLive.processed, False.elim, nofun⟩
    split
    · exact ⟨nofun, hLive.unused, hLive.processed, False.elim, nofun⟩
    split
    · next hProcessed =>
      rcases List.any_eq_true.mp hProcessed with ⟨outpoint, hIn, hSame⟩
      rcases hLive.processed outpoint hIn with ⟨hLower', hGone⟩
      have hEq := (sameOutput_iff hLower hLower').mp hSame
      refine ⟨fun hIs => ?_, hTail, hLive.processed, fun _ other output hFind hNone hMay => ?_,
        fun hIs => ?_⟩
      · rw [hPhase] at hIs
        cases hIs
      · refine hRest other output hFind hNone hMay fun hCur => ?_
        rw [hCur, hEq, hGone] at hFind
        cases hFind
      · rw [hPhase] at hIs
        cases hIs
    split
    · next hUsed => exact absurd (hUnused current mem_cons_self) hUsed
    · rw [hTopic]
      refine ⟨nofun, hTail, fun outpoint hIn => ?_, fun _ outpoint output hFind hNone hMay => ?_,
        nofun⟩
      · rw [findOutput_deleteOutput]
        rcases mem_append.mp hIn with hPre | hCur
        · rcases hLive.processed outpoint hPre with ⟨hLower', hGone⟩
          refine ⟨hLower', ?_⟩
          split_ifs
          · rfl
          · exact hGone
        · rw [mem_singleton.mp hCur, if_pos ⟨rfl, rfl⟩]
          exact ⟨hLower, rfl⟩
      · rw [findOutput_deleteOutput] at hFind
        split_ifs at hFind with hSame
        exact hRest outpoint output hFind hNone hMay fun hEq => hSame ⟨hEq, rfl⟩

theorem PruneTask.Live.readAncestor {reference : Outpoint} (hLive : task.Live start topic storage)
  (hPhase : task.phase.Active) :
  (task.ancestor storage current reference rest).Live start topic storage := by
  have hQueued := hLive.queued hPhase
  unfold PruneTask.ancestor
  dsimp only
  repeat' split
  all_goals exact ⟨nofun, hLive.unused, hLive.processed, fun _ => hQueued, nofun⟩

theorem PruneTask.Live.update (hLive : task.Live start topic storage)
  (hPhase : task.phase = .update current ancestor remaining rest)
  (hFind : storage.findOutput ancestor.outpoint topic = some ancestor) :
  (task.update current ancestor remaining rest).Live start topic
    (storage.updateConsumedBy ancestor.outpoint topic remaining) := by
  have hQueued := hLive.queued (by rw [hPhase]; trivial)
  have hProcessed : ∀ outpoint ∈ task.processed, toLowerCase outpoint.txid = outpoint.txid ∧
      (storage.updateConsumedBy ancestor.outpoint topic remaining).findOutput outpoint topic = none :=
    fun outpoint hIn => (hLive.processed outpoint hIn).imp_right findOutput_updateConsumedBy_eq_none
  -- the row of the ancestor is the only one that changes
  have hRow : ∀ outpoint output, (storage.updateConsumedBy ancestor.outpoint topic
      remaining).findOutput outpoint topic = some output → output.consumedBy = [] →
      MayGo start topic task.coin outpoint →
        outpoint = ancestor.outpoint ∧ remaining = [] ∨ ∃ row ∈ task.queue, row.outpoint = outpoint := by
    intro outpoint output hOut hNone hMay
    rw [findOutput_updateConsumedBy] at hOut
    split_ifs at hOut with hSame
    · rw [hSame.1, hFind] at hOut
      cases hOut
      exact .inl ⟨hSame.1, hNone⟩
    · exact .inr (hQueued outpoint output hOut hNone hMay)
  unfold PruneTask.update
  split
  · next hNil =>
    refine ⟨nofun, fun row hIn => ?_, hProcessed, fun _ outpoint output hOut hNone hMay => ?_,
      nofun⟩
    · rcases mem_concat_iff.mp hIn with hPre | hNew
      · exact hLive.unused row hPre
      · rw [hNew]
        exact hNil
    · rcases hRow outpoint output hOut hNone hMay with ⟨rfl, -⟩ | ⟨row, hIn, hKey⟩
      · exact ⟨_, mem_append_right _ (mem_singleton_self _), rfl⟩
      · exact ⟨row, mem_append_left _ hIn, hKey⟩
  · next hSome =>
    refine ⟨nofun, hLive.unused, hProcessed, fun _ outpoint output hOut hNone hMay => ?_, nofun⟩
    exact (hRow outpoint output hOut hNone hMay).resolve_left fun hNil => hSome hNil.2

-- Runs

def PrunePhase.Idle : PrunePhase → Prop
| .ancestors _ _ => False
| .update _ _ _ _ => False
| _ => True

/- A run that has queued only outputs that something uses. -/
structure PruneTask.Idle (coin : Outpoint) (task : PruneTask) : Prop where
  coin_eq : task.coin = coin
  used : ∀ row ∈ task.queue, row.consumedBy ≠ []
  phase : task.phase.Idle

section

variable (hFound : start.findOutput coin topic = some output) (hUsed : output.consumedBy ≠ [])

include hFound hUsed

theorem PruneTask.Idle.step (hIdle : task.Idle coin) :
  (pruneStep topic start task).1 = start ∧ (pruneStep topic start task).2.Idle coin := by
  rcases hIdle with ⟨rfl, hQueue, hPhase⟩
  unfold pruneStep
  split
  · unfold PruneTask.find
    rw [hFound]
    dsimp only
    split
    · exact ⟨rfl, rfl, hQueue, trivial⟩
    · refine ⟨rfl, rfl, fun row hRow => ?_, trivial⟩
      rw [mem_singleton.mp hRow]
      exact hUsed
  · unfold PruneTask.next
    split
    · exact ⟨rfl, rfl, hQueue, trivial⟩
    · next current queue hCur =>
      rw [hCur, forall_mem_cons] at hQueue
      split
      · exact ⟨rfl, rfl, hCur ▸ forall_mem_cons.mpr hQueue, trivial⟩
      split
      · exact ⟨rfl, rfl, hCur ▸ forall_mem_cons.mpr hQueue, trivial⟩
      split
      · exact ⟨rfl, rfl, hQueue.2, hPhase⟩
      · rw [if_pos hQueue.1]
        exact ⟨rfl, rfl, hQueue.2, hPhase⟩
  · next hIs => rw [hIs] at hPhase; exact hPhase.elim
  · next hIs => rw [hIs] at hPhase; exact hPhase.elim
  · next hIs => rw [hIs] at hPhase; exact hPhase.elim
  · exact ⟨rfl, rfl, hQueue, hPhase⟩
  · exact ⟨rfl, rfl, hQueue, hPhase⟩

end

-- Termination

def PruneTask.left (task : PruneTask) : Nat :=
  10 * (MAX_OUTPUT_RELATIONS + 1 - task.relationCount) + 5 * task.queue.length +
    match task.phase with
    | .find => 7
    | .next => 1
    | .ancestors _ _ => 2
    | .update _ _ _ _ => 8
    | .done => 0
    | .failed _ => 0

end TsStack.Overlay
