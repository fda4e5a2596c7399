import TsStack.Overlay.AnchorChain

/-
  The calls that change topic anchor chains.

  A call changes rows and then makes at most one pass on
  each topic.  The chains of all topics are kept by every
  call whose passes are safe.  A chain is broken by a pass
  that halts below anchors it has made stale.
-/

-- Optional Passes

open List Option

namespace TsStack.Overlay

open AnchorStorage

open StateProgram (finalState)

/- The pass that `recomputeTopicBlockAnchor` makes. -/
def recomputePass (storage : AnchorStorage) (topic : JsString) (blockHeight : Nat)
  (blockHash : Option HashHex) : Option AnchorPass :=
  match checkRecompute topic blockHeight, anchorBlockHash storage topic blockHeight blockHash with
  | .ok (), some hash =>
    some
      { topic := topic
        fromHeight := (recomputeSlice storage topic blockHeight).1
        toHeight := (recomputeSlice storage topic blockHeight).2
        blockHashHints := [(blockHeight, hash)]
        forceResolve := false }
  | _, _ => none

/- The pass that `advanceTopicAnchorChains` makes. -/
def advancePass
  (storage : AnchorStorage) (targetHeight : Nat) (topic : JsString) : Option AnchorPass :=
  match storage.findTopicAnchorTip topic with
  | none => none
  | some tip =>
    if tip.blockHeight ≥ targetHeight then none
    else
      some
        { topic := topic
          fromHeight := tip.blockHeight + 1
          toHeight := targetHeight
          blockHashHints := []
          forceResolve := false }

/- The pass that `reconcileReorg` makes. -/
def reorgPass
  (storage : AnchorStorage) (input : ReorgInput) (topic : JsString) : Option AnchorPass :=
  (reorgStart storage input topic).map fun startHeight =>
    { topic := topic
      fromHeight := startHeight
      toHeight := input.newTipHeight
      blockHashHints := []
      forceResolve := true }

def afterPass (env : AnchorEnv) (storage : AnchorStorage) :
  Option AnchorPass → AnchorStorage
| none => storage
| some pass => finalState (pass.run env storage)

def SafeOn (env : AnchorEnv) (storage : AnchorStorage) (topic : JsString) : Option AnchorPass → Prop
| none => RootsCurrent storage topic
| some pass => SafePass env storage pass

variable {env : AnchorEnv} {storage after : AnchorStorage} {topic other : JsString}
variable {attempt : Option AnchorPass}

theorem SameTopic.anchorChain
  (hSame : SameTopic topic storage after) (hChain : AnchorChain storage topic) :
  AnchorChain after topic := by
  rcases hChain with ⟨hLinked, hCur⟩
  unfold LinkedAnchors at hLinked
  unfold RootsCurrent RootCurrent at hCur
  rw [← hSame.anchors] at hLinked hCur
  rw [← hSame.admitted] at hCur
  exact ⟨hLinked, hCur⟩

theorem sameTopic_afterPass (hOther : ∀ pass ∈ attempt, other ≠ pass.topic) :
  SameTopic other storage (afterPass env storage attempt) := by
  cases attempt with
  | none => exact .refl _ _
  | some pass =>
    rcases (pass.run_spec env storage).1 with ⟨stop, hEnds⟩
    exact hEnds.writes.others other (hOther pass rfl)

theorem anchorChain_afterPass
  (hLinked : LinkedAnchors storage topic) (hTopic : ∀ pass ∈ attempt, pass.topic = topic)
  (hMeets : ∀ pass ∈ attempt, pass.Meets storage) (hSafe : SafeOn env storage topic attempt) :
  AnchorChain (afterPass env storage attempt) topic := by
  cases attempt with
  | none => exact ⟨hLinked, hSafe⟩
  | some pass =>
    rcases (pass.run_spec env storage).1 with ⟨stop, hEnds⟩
    rw [← hTopic pass rfl] at hLinked ⊢
    exact anchorChain_of_pass hEnds hLinked (hMeets pass rfl) hSafe

theorem meets_of_tip {pass : AnchorPass}
  (hFirst : ∀ tip, storage.findTopicAnchorTip pass.topic = some tip →
        pass.fromHeight ≤ tip.blockHeight + 1) :
  pass.Meets storage := by
  intro height hSome
  cases hTip : storage.findTopicAnchorTip pass.topic with
  | none =>
    rw [findTopicAnchorTip_eq_none hTip] at hSome
    cases hSome
  | some tip => exact ⟨tip.blockHeight, (findTopicAnchorTip_eq_some hTip).1, hFirst tip hTip⟩

-- The Pass of a Recomputation

variable {storage : AnchorStorage} {blockHeight : Nat} {blockHash : Option HashHex}

theorem recompute_finalState
  (env : AnchorEnv) (storage : AnchorStorage) (topic : JsString) (blockHeight : Nat)
  (blockHash : Option HashHex) :
  finalState (recomputeTopicBlockAnchor topic blockHeight blockHash env storage) =
    afterPass env storage (recomputePass storage topic blockHeight blockHash) := by
  unfold recomputeTopicBlockAnchor recomputePass
  cases hCheck : checkRecompute topic blockHeight with
  | error error => rfl
  | ok value =>
    cases hHash : anchorBlockHash storage topic blockHeight blockHash with
    | none =>
      simp only [StateProgram.bind_run, StateProgram.ofExcept, StateProgram.pure_run,
        StateProgram.get_run, hHash]
      rfl
    | some hash =>
      simp only [StateProgram.bind_run, StateProgram.ofExcept, StateProgram.pure_run,
        StateProgram.get_run, hHash]
      rfl

theorem recomputePass_topic :
  ∀ pass ∈ recomputePass storage topic blockHeight blockHash, pass.topic = topic := by
  intro pass hPass
  unfold recomputePass at hPass
  split at hPass
  · cases hPass
    rfl
  · cases hPass

theorem recomputePass_meets :
  ∀ pass ∈ recomputePass storage topic blockHeight blockHash, pass.Meets storage := by
  intro pass hPass
  unfold recomputePass at hPass
  split at hPass
  · cases hPass
    apply meets_of_tip
    intro tip hTip
    simp only [recomputeSlice, hTip]
    exact Nat.min_le_right _ _
  · cases hPass

theorem anchorChain_recompute (hLinked : LinkedAnchors storage topic)
  (hOth : ∀ other, other ≠ topic → AnchorChain storage other)
  (hSafe : SafeOn env storage topic (recomputePass storage topic blockHeight blockHash))
  (other : JsString) :
  AnchorChain (finalState (recomputeTopicBlockAnchor topic blockHeight blockHash env storage))
    other := by
  rw [recompute_finalState]
  by_cases hSame : other = topic
  · rw [hSame]
    exact anchorChain_afterPass hLinked recomputePass_topic recomputePass_meets hSafe
  · apply SameTopic.anchorChain _ (hOth other hSame)
    apply sameTopic_afterPass
    intro pass hPass hTopic
    apply hSame
    rw [hTopic]
    exact recomputePass_topic pass hPass

-- Rows

theorem admittedRef_of_ne {row : AppliedTransaction} (hNe : row.topic ≠ topic) (height : Nat) :
  admittedRef topic height row = none := by
  unfold admittedRef
  rw [if_neg fun hRow => hNe hRow.1]

theorem sameTopic_of_filterMap {after : AnchorStorage} (hAnchors : after.anchors = storage.anchors)
  (hRows : ∀ height, after.applied.filterMap (admittedRef topic height) =
        storage.applied.filterMap (admittedRef topic height)) :
  SameTopic topic storage after := by
  constructor
  · funext height
    unfold admittedAt findAdmittedTransactionsForBlock
    rw [hRows]
  · funext height
    unfold findTopicBlockAnchor
    rw [hAnchors]

theorem sameTopic_insertAppliedTransaction {tx : AppliedTransaction} (hNe : tx.topic ≠ topic) :
  SameTopic topic storage (storage.insertAppliedTransaction tx) := by
  unfold insertAppliedTransaction
  split_ifs
  · exact .refl _ _
  · apply sameTopic_of_filterMap
    · rfl
    · intro height
      rw [filterMap_append, filterMap_cons, admittedRef_of_ne hNe, filterMap_nil,
        append_nil]

theorem sameTopic_updateAppliedTransactionProof
  {record : AppliedTransactionProofUpdate} (hNe : record.topic ≠ topic) :
  SameTopic topic storage (storage.updateAppliedTransactionProof record) := by
  apply sameTopic_of_filterMap
  · rfl
  · intro height
    unfold updateAppliedTransactionProof
    rw [filterMap_map]
    apply filterMap_congr
    intro row _
    rw [Function.comp_apply]
    split_ifs with hRow
    · have hRowNe : row.topic ≠ topic := by
        rw [hRow.2]
        exact hNe
      rw [admittedRef_of_ne hRowNe]
      apply admittedRef_of_ne
      exact hRowNe
    · rfl

theorem insertAppliedTransaction_anchors (storage : AnchorStorage) (tx : AppliedTransaction) :
  (storage.insertAppliedTransaction tx).anchors =
    storage.anchors := by
  unfold insertAppliedTransaction
  split_ifs
  · rfl
  · rfl

theorem demoteRows_anchors (storage : AnchorStorage) (rows : List ReorgRow) :
  (demoteRows storage rows).anchors = storage.anchors := by
  unfold demoteRows
  induction rows generalizing storage with
  | nil => rfl
  | cons row rows ih =>
    rw [foldl_cons]
    exact ih _

theorem linkedAnchors_of_anchors
  {after : AnchorStorage} (hAnchors : after.anchors = storage.anchors)
  (hLinked : LinkedAnchors storage topic) : LinkedAnchors after topic := by
  unfold LinkedAnchors findTopicBlockAnchor at hLinked ⊢
  rw [hAnchors]
  exact hLinked

-- Passes over the Hosted Topics

def Visits (Throws : JsString → Prop) (topic : JsString) : List JsString → Prop
| [] => False
| first :: rest => first = topic ∨ (¬Throws first ∧ Visits Throws topic rest)

def AttemptThrows (env : AnchorEnv) (attempt : AnchorStorage → JsString → Option AnchorPass)
  (storage : AnchorStorage) (topic : JsString) : Prop :=
  ∃ pass ∈ attempt storage topic, pass.Throws env storage

structure Attempts (attempt : AnchorStorage → JsString → Option AnchorPass) :
  Prop where
  topic : ∀ storage topic, ∀ pass ∈ attempt storage topic, pass.topic = topic
  congr : ∀ storage after topic, SameTopic topic storage after →
      attempt after topic = attempt storage topic

variable {storage after : AnchorStorage} {topic : JsString} {pass : AnchorPass}
variable
  {attempt : AnchorStorage → JsString → Option AnchorPass}
variable {program : JsString → AnchorM Unit}

theorem visits_congr {Throws Other : JsString → Prop} {topics : List JsString}
  (hCongr : ∀ first ∈ topics, (Throws first ↔ Other first)) :
  Visits Throws topic topics ↔ Visits Other topic topics := by
  induction topics with
  | nil => exact .rfl
  | cons first rest ih =>
    unfold Visits
    rw [hCongr first mem_cons_self, ih fun next hNext =>
      hCongr next (mem_cons_of_mem _ hNext)]

theorem Visits.mem
  {Throws : JsString → Prop} {topics : List JsString} (hVisits : Visits Throws topic topics) :
  topic ∈ topics := by
  induction topics with
  | nil => exact hVisits.elim
  | cons first rest ih =>
    rcases hVisits with rfl | ⟨_, hRest⟩
    · exact mem_cons_self
    · exact mem_cons_of_mem _ (ih hRest)

theorem SameTopic.blockHashAt (hSame : SameTopic pass.topic storage after) :
  pass.blockHashAt env after = pass.blockHashAt env storage := by
  funext height
  unfold AnchorPass.blockHashAt passBlockHash
  rw [hSame.anchors]

section

variable (hSame : SameTopic pass.topic storage after)
include hSame

theorem SameTopic.passesAt : pass.PassesAt env after = pass.PassesAt env storage := by
  funext height
  unfold AnchorPass.PassesAt Passes passBlockHash
  rw [hSame.anchors, hSame.admitted]

theorem SameTopic.reaches : pass.Reaches env after = pass.Reaches env storage := by
  funext height
  unfold AnchorPass.Reaches
  rw [hSame.passesAt]

theorem SameTopic.throws : pass.Throws env after ↔ pass.Throws env storage := by
  unfold AnchorPass.Throws
  rw [hSame.passesAt, hSame.blockHashAt]

theorem SameTopic.safePass (hSafe : SafePass env storage pass) : SafePass env after pass := by
  rcases hSafe with ⟨hCur, hAbove⟩
  unfold AnchorPass.Repeats at hAbove
  unfold RootCurrent at hCur hAbove
  rw [← hSame.anchors, ← hSame.reaches] at hCur hAbove
  rw [← hSame.admitted] at hCur hAbove
  rw [← hSame.blockHashAt] at hAbove
  exact ⟨hCur, hAbove⟩

end

theorem attemptThrows_congr (hAttempts : Attempts attempt) (hSame : SameTopic topic storage after) :
  AttemptThrows env attempt after topic ↔ AttemptThrows env attempt storage topic := by
  unfold AttemptThrows
  rw [hAttempts.congr storage after topic hSame]
  constructor
  · rintro ⟨pass, hPass, hThrows⟩
    rw [← hAttempts.topic storage topic pass hPass] at hSame
    exact ⟨pass, hPass, hSame.throws.mp hThrows⟩
  · rintro ⟨pass, hPass, hThrows⟩
    rw [← hAttempts.topic storage topic pass hPass] at hSame
    exact ⟨pass, hPass, hSame.throws.mpr hThrows⟩

def RunsPass (env : AnchorEnv) (program : AnchorM Unit) (storage : AnchorStorage)
  (attempt : Option AnchorPass) : Prop :=
  match attempt with
  | none => program env storage = .ok () storage
  | some pass => program env storage = pass.run env storage

theorem RunsPass.finalState_eq {program : AnchorM Unit} {attempt : Option AnchorPass}
  (hRuns : RunsPass env program storage attempt) :
  finalState (program env storage) = afterPass env storage attempt := by
  cases attempt with
  | none => rw [hRuns]; rfl
  | some pass => rw [hRuns]; rfl

theorem RunsPass.throws_iff (hRuns : RunsPass env (program topic) storage (attempt storage topic)) :
  (∃ error after, program topic env storage = .error error after) ↔
    AttemptThrows env attempt storage topic := by
  unfold AttemptThrows
  cases hAttempt : attempt storage topic with
  | none =>
    rw [hAttempt] at hRuns
    rw [hRuns]
    constructor
    · rintro ⟨_, _, hError⟩
      cases hError
    · rintro ⟨_, hPass, _⟩
      cases hPass
  | some pass =>
    rw [hAttempt] at hRuns
    rw [hRuns, (pass.run_spec env storage).2]
    constructor
    · intro hThrows
      exact ⟨pass, rfl, hThrows⟩
    · rintro ⟨_, hPass, hThrows⟩
      cases hPass
      exact hThrows

variable {first : JsString}

theorem sameTopic_afterAttempt (hAttempts : Attempts attempt) (hNe : topic ≠ first) :
  SameTopic topic storage (afterPass env storage (attempt storage first)) := by
  apply sameTopic_afterPass
  intro pass hPass hSame
  apply hNe
  rw [hSame]
  exact hAttempts.topic storage first pass hPass

structure LoopSpec (env : AnchorEnv) (attempt : AnchorStorage → JsString → Option AnchorPass)
  (topics : List JsString) (topic : JsString) (storage after : AnchorStorage) : Prop where
  visited : Visits (AttemptThrows env attempt storage) topic topics →
      ∃ middle, SameTopic topic storage middle ∧ SameTopic topic
          (afterPass env middle (attempt middle topic)) after
  skipped : ¬Visits (AttemptThrows env attempt storage) topic topics → SameTopic topic storage after

theorem LoopSpec.cons
  (hAttempts : Attempts attempt) {first : JsString} {rest : List JsString} (hNotIn : first ∉ rest)
  (hThrows : ¬AttemptThrows env attempt storage first) (hRest :
    LoopSpec env attempt rest topic (afterPass env storage (attempt storage first)) after) :
  LoopSpec env attempt (first :: rest) topic storage
    after := by
  have hCongr : Visits (AttemptThrows env attempt (afterPass env storage (attempt storage first)))
          topic rest ↔
        Visits (AttemptThrows env attempt storage) topic
          rest := by
    apply visits_congr
    intro next hNext
    apply attemptThrows_congr hAttempts
    apply sameTopic_afterAttempt hAttempts
    rintro rfl
    exact hNotIn hNext
  by_cases hFirst : first = topic
  · subst hFirst
    have hSkipped := hRest.skipped fun hVisits => hNotIn hVisits.mem
    constructor
    · intro _
      exact ⟨storage, .refl _ _, hSkipped⟩
    · intro hNot
      exact absurd (.inl rfl) hNot
  · have hSame : SameTopic topic storage (afterPass env storage (attempt storage first)) :=
      sameTopic_afterAttempt hAttempts (Ne.symm hFirst)
    constructor
    · rintro (hEq | ⟨_, hVisits⟩)
      · exact absurd hEq hFirst
      · rcases hRest.visited (hCongr.mpr hVisits) with ⟨middle, hMiddle, hAfter⟩
        exact ⟨middle, hSame.trans hMiddle, hAfter⟩
    · intro hNot
      apply hSame.trans
      apply hRest.skipped
      intro hVisits
      exact hNot (.inr ⟨hThrows, hCongr.mp hVisits⟩)

theorem LoopSpec.throw (hAttempts : Attempts attempt) {rest : List JsString}
  (hThrows : AttemptThrows env attempt storage first) :
  LoopSpec env attempt (first :: rest) topic storage
    (afterPass env storage (attempt storage first)) := by
  by_cases hFirst : first = topic
  · subst hFirst
    constructor
    · intro _
      exact ⟨storage, .refl _ _, .refl _ _⟩
    · intro hNot
      exact absurd (.inl rfl) hNot
  · constructor
    · rintro (hEq | ⟨hOk, _⟩)
      · exact absurd hEq hFirst
      · exact absurd hThrows hOk
    · intro _
      exact sameTopic_afterAttempt hAttempts (Ne.symm hFirst)

/-
  A loop over topics makes a pass on each topic it gets to,
  on a storage that is like the first one for the topic.
-/
theorem loopSpec_forM (hAttempts : Attempts attempt)
  (hRuns : ∀ topic storage, RunsPass env (program topic) storage (attempt storage topic))
  (topic : JsString) (topics : List JsString) (hNodup : topics.Nodup) (storage : AnchorStorage) :
  LoopSpec env attempt topics topic storage (finalState (topics.forM program env storage)) := by
  induction topics generalizing storage with
  | nil =>
    constructor
    · intro hVisits
      exact hVisits.elim
    · intro _
      exact .refl _ _
  | cons first rest ih =>
    rcases nodup_cons.mp hNodup with ⟨hNotIn, hRest⟩
    have hFinal := (hRuns first storage).finalState_eq
    have hThrows := (hRuns first storage).throws_iff
    have hLoop : (first :: rest).forM program env storage =
      (program first >>= fun _ => rest.forM program) env storage := rfl
    rw [hLoop, StateProgram.bind_run]
    cases hRun : program first env storage with
    | ok value next =>
      rw [hRun] at hFinal hThrows
      have hOk : ¬AttemptThrows env attempt storage first := by
        rw [← hThrows]
        rintro ⟨_, _, hError⟩
        cases hError
      apply LoopSpec.cons hAttempts hNotIn hOk
      rw [← hFinal]
      exact ih hRest next
    | error error next =>
      rw [hRun] at hFinal hThrows
      change next = _ at hFinal
      rw [hFinal]
      exact .throw hAttempts (hThrows.mp ⟨error, next, rfl⟩)

-- Advancing

variable {storage : AnchorStorage}

theorem advanceTopic_runsPass
  (env : AnchorEnv) (storage : AnchorStorage) (targetHeight : Nat) (topic : JsString) :
  RunsPass env (advanceTopic targetHeight topic) storage
    (advancePass storage targetHeight topic) := by
  unfold advancePass
  cases hTip : storage.findTopicAnchorTip topic with
  | none =>
    simp only [RunsPass, advanceTopic, StateProgram.bind_run, StateProgram.get_run, hTip]
    rfl
  | some tip =>
    by_cases hHigh : tip.blockHeight ≥ targetHeight
    · simp only [RunsPass, advanceTopic, StateProgram.bind_run, StateProgram.get_run, hTip,
        if_pos hHigh]
      rfl
    · simp only [RunsPass, advanceTopic, StateProgram.bind_run, StateProgram.get_run, hTip,
        if_neg hHigh]
      rfl

theorem anchorChain_advanceTopic
  {targetHeight : Nat} (hChains : ∀ topic, AnchorChain storage topic) (topic : JsString) :
  AnchorChain (finalState (advanceTopic targetHeight first env storage))
    topic := by
  rw [(advanceTopic_runsPass env storage targetHeight first).finalState_eq]
  unfold advancePass
  cases hTip : storage.findTopicAnchorTip first with
  | none => exact hChains topic
  | some tip =>
    simp only
    split_ifs with hHigh
    · exact hChains topic
    · by_cases hSame : topic = first
      · subst hSame
        apply anchorChain_afterPass (hChains topic).linked
        · intro pass hPass
          cases hPass
          rfl
        · intro pass hPass
          cases hPass
          apply meets_of_tip
          intro other hOther
          rw [hTip] at hOther
          cases hOther
          exact Nat.le_refl _
        · constructor
          · intro height anchor hFind _
            exact (hChains topic).current height anchor hFind
          · apply Or.inl
            intro height hSome hAbove
            have hTop := (findTopicAnchorTip_eq_some hTip).2 height hSome
            simp only at hAbove
            omega
      · apply SameTopic.anchorChain _ (hChains topic)
        apply sameTopic_afterPass
        intro pass hPass
        cases hPass
        exact hSame

theorem anchorChain_advanceTopics
  (targetHeight : Nat) (topics : List JsString) (hChains : ∀ topic, AnchorChain storage topic)
  (topic : JsString) :
  AnchorChain (finalState (topics.forM (advanceTopic targetHeight) env storage))
    topic := by
  induction topics generalizing storage with
  | nil => exact hChains topic
  | cons first rest ih =>
    have hLoop : (first :: rest).forM (advanceTopic targetHeight) env storage =
      (advanceTopic targetHeight first >>= fun _ =>
        rest.forM (advanceTopic targetHeight))
        env storage := rfl
    have hFirst : ∀ topic, AnchorChain (finalState (advanceTopic targetHeight first env storage))
            topic :=
      anchorChain_advanceTopic hChains
    rw [hLoop, StateProgram.bind_run]
    cases hRun : advanceTopic targetHeight first env storage with
    | ok value next =>
      rw [hRun] at hFirst
      exact ih hFirst
    | error error next =>
      rw [hRun] at hFirst
      exact hFirst topic

/- `advanceTopicAnchorChains` keeps the chains. -/
theorem anchorChain_advance
  (toHeight : Option Nat) (hChains : ∀ topic, AnchorChain storage topic) (topic : JsString) :
  AnchorChain (finalState (advanceTopicAnchorChains toHeight env storage))
    topic := by
  unfold advanceTopicAnchorChains
  simp only [StateProgram.bind_run, readThe_run]
  cases toHeight.or env.currentHeight with
  | none => exact hChains topic
  | some targetHeight =>
    simp only [StateProgram.bind_run]
    cases assertNonnegativeInteger targetHeight "BASM target height" with
    | error error => exact hChains topic
    | ok value => exact anchorChain_advanceTopics targetHeight env.managers hChains topic

-- Reorganizing

variable {input : ReorgInput}

theorem reorgPass_attempts (input : ReorgInput) :
  Attempts fun storage topic => reorgPass storage input topic := by
  constructor
  · intro storage topic pass hPass
    unfold reorgPass at hPass
    rw [mem_def, map_eq_some_iff] at hPass
    rcases hPass with ⟨start, _, rfl⟩
    rfl
  · intro storage after topic hSame
    unfold reorgPass reorgStart findTopicBlockAnchors
    rw [hSame.anchors]

theorem rebuildReorged_runsPass
  (env : AnchorEnv) (input : ReorgInput) (topic : JsString) (storage : AnchorStorage) :
  RunsPass env (rebuildReorged input topic) storage (reorgPass storage input topic) := by
  unfold reorgPass
  cases hStart : reorgStart storage input topic with
  | none =>
    simp only [RunsPass, rebuildReorged, map_none,
      StateProgram.bind_run, StateProgram.get_run, hStart]
    rfl
  | some start =>
    simp only [RunsPass, rebuildReorged, map_some,
      StateProgram.bind_run, StateProgram.get_run, hStart]
    rfl

/- The fold is at most each height it goes over. -/
theorem foldl_min_le (anchors : List TopicBlockAnchor) (start : Nat) :
  anchors.foldl (fun start anchor => min start anchor.blockHeight) start ≤ start ∧
    ∀ anchor ∈ anchors, anchors.foldl (fun start anchor => min start anchor.blockHeight)
        start ≤ anchor.blockHeight := by
  induction anchors generalizing start with
  | nil => simp
  | cons first rest ih =>
    rcases ih (min start first.blockHeight) with ⟨hStart, hRest⟩
    rw [foldl_cons]
    constructor
    · omega
    · intro anchor hAnchor
      rcases mem_cons.mp hAnchor with rfl | hIn
      · omega
      · exact hRest anchor hIn

theorem reorgPass_meets : ∀ pass ∈ reorgPass storage input topic, pass.Meets storage := by
  intro pass hPass
  unfold reorgPass at hPass
  rw [mem_def, map_eq_some_iff] at hPass
  rcases hPass with ⟨start, hStart, rfl⟩
  intro height _
  unfold reorgStart at hStart
  split at hStart
  · cases hStart
  · next existing hExist =>
      cases hFound :
        storage.findTopicBlockAnchors topic input.rebuildFromHeight input.newTipHeight with
      | nil => exact absurd hFound hExist
      | cons first rest =>
        have hFirst : first ∈ storage.findTopicBlockAnchors topic input.rebuildFromHeight
                input.newTipHeight := by
          rw [hFound]
          exact mem_cons_self
        have hLow := (foldl_min_le _ input.newTipHeight).2 first hFirst
        rw [some.inj hStart] at hLow
        unfold findTopicBlockAnchors at hFirst
        rw [mem_filterMap] at hFirst
        rcases hFirst with ⟨near, _, hNear⟩
        rw [(mem_of_findTopicBlockAnchor hNear).2.2] at hLow
        refine ⟨near, ?_, ?_⟩
        · rw [hNear]
          rfl
        · simp only
          omega

def ReorgVisits
  (env : AnchorEnv) (storage : AnchorStorage) (input : ReorgInput) (topic : JsString) : Prop :=
  Visits (AttemptThrows env (fun storage topic => reorgPass storage input topic) storage)
    topic env.managers

/-
  After the rows are demoted, the pass of a topic is safe if
  the loop gets to it, and no root is stale if it does not.
-/
structure SafeReorg
  (env : AnchorEnv) (storage : AnchorStorage) (input : ReorgInput) (topic : JsString) : Prop where
  visited :
    ReorgVisits env storage input topic → SafeOn env storage topic (reorgPass storage input topic)
  skipped : ¬ReorgVisits env storage input topic → RootsCurrent storage topic

theorem SameTopic.safeOn {attempt : Option AnchorPass} (hSame : SameTopic topic storage after)
  (hTopic : ∀ pass ∈ attempt, pass.topic = topic) (hLinked : LinkedAnchors storage topic)
  (hSafe : SafeOn env storage topic attempt) : SafeOn env after topic attempt := by
  cases attempt with
  | none => exact (hSame.anchorChain ⟨hLinked, hSafe⟩).current
  | some pass =>
    rw [← hTopic pass rfl] at hSame
    exact hSame.safePass hSafe

theorem anchorChain_rebuildReorged
  (hLinked : LinkedAnchors storage topic) (hSafe : SafeReorg env storage input topic) :
  AnchorChain (finalState (env.managers.forM (rebuildReorged input) env storage))
    topic := by
  have hLoop :=
    loopSpec_forM (reorgPass_attempts input) (rebuildReorged_runsPass env input) topic env.managers
      env.managers_nodup storage
  by_cases hVisits : ReorgVisits env storage input topic
  · rcases hLoop.visited hVisits with ⟨middle, hMiddle, hAfter⟩
    apply hAfter.anchorChain
    have hPass : reorgPass middle input topic = reorgPass storage input topic :=
      (reorgPass_attempts input).congr storage middle topic hMiddle
    have hTopic := (reorgPass_attempts input).topic storage topic
    apply anchorChain_afterPass
    · have hFinds := hMiddle.anchors
      unfold LinkedAnchors at hLinked ⊢
      rw [hFinds]
      exact hLinked
    · rw [hPass]
      exact hTopic
    · exact reorgPass_meets
    · rw [hPass]
      exact hMiddle.safeOn hTopic hLinked (hSafe.visited hVisits)
  · apply (hLoop.skipped hVisits).anchorChain
    exact ⟨hLinked, hSafe.skipped hVisits⟩

-- Complete Passes

instance
  {env : AnchorEnv} {storage : AnchorStorage} {topic : JsString} {hints : List (Nat × HashHex)}
  {force : Bool} {height : Nat} : Decidable (Passes env storage topic hints force height) :=
  decidable_of_iff ((passBlockHash env storage topic hints force height).isSome = true ∧
      (computeBasmRoot (admittedAt storage topic height)).isOk = true)
    (by
      unfold Passes
      cases computeBasmRoot (admittedAt storage topic height) with
      | error error => simp [Except.isOk, Except.toBool]
      | ok root => simp [Except.isOk, Except.toBool])

structure Completes (env : AnchorEnv) (storage : AnchorStorage) (pass : AnchorPass) : Prop where
  valid : pass.Valid
  passes : ∀ height ∈ List.range' pass.fromHeight
          (passEnd pass.fromHeight pass.toHeight + 1 - pass.fromHeight),
      Passes env storage pass.topic pass.blockHashHints pass.forceResolve height

def WithinSlice (storage : AnchorStorage) (pass : AnchorPass) : Prop :=
  ∀ anchor ∈ storage.anchors, pass.fromHeight ≤ anchor.blockHeight ∧ anchor.blockHeight ≤
        passEnd pass.fromHeight pass.toHeight

theorem safePass_of_completes
  (hCompletes : Completes env storage pass) (hWithin : WithinSlice storage pass) :
  SafePass env storage pass := by
  have hReaches : ∀ height anchor, storage.findTopicBlockAnchor pass.topic height = some anchor →
          pass.Reaches env storage height := by
    intro height anchor hFind
    rcases mem_of_findTopicBlockAnchor hFind with ⟨hIn, _, hHeight⟩
    rcases hWithin anchor hIn with ⟨hLow, hHigh⟩
    rw [hHeight] at hLow hHigh
    refine ⟨hCompletes.valid, ⟨hLow, hHigh⟩, ?_⟩
    intro level hFirst hLevel
    apply hCompletes.passes
    rw [mem_range'_1]
    omega
  constructor
  · intro height anchor hFind hNot
    exact absurd (hReaches height anchor hFind) hNot
  · apply Or.inl
    intro height hSome _
    rcases isSome_iff_exists.mp hSome with ⟨anchor, hFind⟩
    exact hReaches height anchor hFind

-- Runs

def insertPass (storage : AnchorStorage) (tx : AppliedTransaction) : Option AnchorPass :=
  match tx.blockHeight, tx.blockHash with
  | some blockHeight, some blockHash => recomputePass storage tx.topic blockHeight (some blockHash)
  | _, _ => none

def updatePass (storage : AnchorStorage) (record : AppliedTransactionProofUpdate) :
  Option AnchorPass :=
  match record.blockHash with
  | some blockHash => recomputePass storage record.topic record.blockHeight (some blockHash)
  | none => none

def SafeCall (env : AnchorEnv) (storage : AnchorStorage) : AnchorCall → Prop
| .insertApplied tx =>
  SafeOn env (storage.insertAppliedTransaction tx) tx.topic
    (insertPass (storage.insertAppliedTransaction tx) tx)
| .updateProof record =>
  SafeOn env (storage.updateAppliedTransactionProof record) record.topic
    (updatePass (storage.updateAppliedTransactionProof record) record)
| .recompute topic blockHeight blockHash =>
  SafeOn env storage topic (recomputePass storage topic blockHeight blockHash)
| .advance _ => True
| .handleReorg input =>
  ∀ rows, reorgDemotions env storage input [] = .ok rows →
    ∀ topic, SafeReorg env (demoteRows storage rows) input topic

def AnchorStep (storage after : AnchorStorage) : Prop :=
  ∃ (env : AnchorEnv) (call : AnchorCall), after = finalState (call.run env storage)

def SafeStep (storage after : AnchorStorage) : Prop :=
  ∃ (env : AnchorEnv) (call : AnchorCall), SafeCall env storage call ∧
    after = finalState (call.run env storage)

section

variable (hChains : ∀ topic, AnchorChain storage topic)

include hChains

theorem anchorChain_insertApplied {tx : AppliedTransaction}
  (hSafe : SafeCall env storage (.insertApplied tx)) (topic : JsString) :
  AnchorChain (finalState (insertApplied tx env storage))
    topic := by
  have hLinked : LinkedAnchors (storage.insertAppliedTransaction tx)
        tx.topic :=
    linkedAnchors_of_anchors (insertAppliedTransaction_anchors storage tx) (hChains tx.topic).linked
  have hOth : ∀ other, other ≠ tx.topic → AnchorChain (storage.insertAppliedTransaction tx)
          other := by
    intro other hNe
    apply SameTopic.anchorChain _ (hChains other)
    exact sameTopic_insertAppliedTransaction (Ne.symm hNe)
  have hNoPass : RootsCurrent (storage.insertAppliedTransaction tx) tx.topic →
        AnchorChain (storage.insertAppliedTransaction tx)
          topic := by
    intro hCur
    by_cases hSame : topic = tx.topic
    · rw [hSame]
      exact ⟨hLinked, hCur⟩
    · exact hOth topic hSame
  unfold SafeCall insertPass at hSafe
  unfold insertApplied
  simp only [StateProgram.bind_run, StateProgram.modify_run]
  cases hHeight : tx.blockHeight with
  | none =>
    simp only [hHeight] at hSafe
    exact hNoPass hSafe
  | some blockHeight =>
    cases hHash : tx.blockHash with
    | none =>
      simp only [hHeight, hHash] at hSafe
      exact hNoPass hSafe
    | some blockHash =>
      simp only [hHeight, hHash] at hSafe
      exact anchorChain_recompute hLinked hOth hSafe topic

theorem anchorChain_updateProof {record : AppliedTransactionProofUpdate}
  (hSafe : SafeCall env storage (.updateProof record)) (topic : JsString) :
  AnchorChain (finalState (updateProof record env storage))
    topic := by
  have hLinked : LinkedAnchors (storage.updateAppliedTransactionProof record)
        record.topic :=
    linkedAnchors_of_anchors rfl (hChains record.topic).linked
  have hOth :
      ∀ other, other ≠ record.topic → AnchorChain (storage.updateAppliedTransactionProof record)
        other := by
    intro other hNe
    apply SameTopic.anchorChain _ (hChains other)
    exact sameTopic_updateAppliedTransactionProof (Ne.symm hNe)
  unfold SafeCall updatePass at hSafe
  unfold updateProof
  simp only [StateProgram.bind_run, StateProgram.modify_run]
  cases hHash : record.blockHash with
  | none =>
    simp only [hHash] at hSafe
    by_cases hSame : topic = record.topic
    · rw [hSame]
      exact ⟨hLinked, hSafe⟩
    · exact hOth topic hSame
  | some blockHash =>
    simp only [hHash] at hSafe
    exact anchorChain_recompute hLinked hOth hSafe topic

theorem anchorChain_handleReorg
  (hSafe : SafeCall env storage (.handleReorg input)) (topic : JsString) :
  AnchorChain (finalState (handleReorg input env storage))
    topic := by
  unfold SafeCall at hSafe
  unfold handleReorg reconcileReorg
  simp only [StateProgram.bind_run, StateProgram.get_run, readThe_run]
  cases hRows : reorgDemotions env storage input [] with
  | error error => exact hChains topic
  | ok rows =>
    have hLinked : LinkedAnchors (demoteRows storage rows) topic :=
      linkedAnchors_of_anchors (demoteRows_anchors storage rows) (hChains topic).linked
    exact anchorChain_rebuildReorged hLinked (hSafe rows hRows topic)

end

theorem anchorChain_of_safe_step
  (hStep : SafeStep storage after) (hChains : ∀ topic, AnchorChain storage topic)
  (topic : JsString) : AnchorChain after topic := by
  rcases hStep with ⟨env, call, hSafe, rfl⟩
  cases call with
  | insertApplied tx => exact anchorChain_insertApplied hChains hSafe topic
  | updateProof record => exact anchorChain_updateProof hChains hSafe topic
  | recompute first blockHeight blockHash =>
    exact anchorChain_recompute (hChains first).linked (fun other _ => hChains other) hSafe topic
  | advance toHeight => exact anchorChain_advance toHeight hChains topic
  | handleReorg input => exact anchorChain_handleReorg hChains hSafe topic

theorem anchorChain_of_safe_run
  (hRun : Relation.ReflTransGen SafeStep {} storage) (topic : JsString) :
  AnchorChain storage topic := by
  induction hRun generalizing topic with
  | refl =>
    constructor
    · exact linkedInterval_empty
    · intro height anchor hFind
      cases hFind
  | tail _ hStep ih => exact anchorChain_of_safe_step hStep ih topic

def repeatedHash (digit : Char) (hValid : isHashHex (List.replicate 64 digit) = true) :
  HashHex where
  value := List.replicate 64 digit
  valid := hValid

/- A proven transaction of the topic `tm`. -/
def provenAt (hash : HashHex) (height : Nat) : AppliedTransaction where
  txid := hash
  topic := ['t', 'm']
  blockHeight := some height
  blockHash := some hash
  blockIndex := some 0
  proven := true

def resolvesTen : AnchorEnv where
  managers := [['t', 'm']]
  managers_nodup := by decide
  topicAnchorHeaderResolver := fun height =>
    if height = 10 then
      some
        { blockHeight := 10
          blockHash := repeatedHash 'c' (by decide) }
    else none
  currentHeight := none

theorem safeCall_insertApplied_empty (env : AnchorEnv) (tx : AppliedTransaction) :
  SafeCall env {} (.insertApplied tx) := by
  have hNone : ∀ topic height, ((({} : AnchorStorage).insertAppliedTransaction
          tx).findTopicBlockAnchor topic height) = none := by
    intro topic height
    unfold findTopicBlockAnchor
    rw [insertAppliedTransaction_anchors]
    rfl
  rw [SafeCall]
  cases insertPass (({} : AnchorStorage).insertAppliedTransaction tx) tx with
  | none =>
    intro height anchor hFind
    rw [hNone] at hFind
    cases hFind
  | some pass =>
    constructor
    · intro height anchor hFind
      rw [hNone] at hFind
      cases hFind
    · apply Or.inl
      intro height hSome
      rw [hNone] at hSome
      cases hSome

def appliedOne (height : Nat) : AnchorStorage :=
  finalState ((AnchorCall.insertApplied
      (provenAt (repeatedHash 'a' (by decide)) height)).run resolvesTen {})

def appliedTwo (first second : Nat) : AnchorStorage :=
  finalState ((AnchorCall.insertApplied (provenAt (repeatedHash 'b' (by decide)) second)).run
        resolvesTen (appliedOne first))

theorem anchorStep_run (env : AnchorEnv) (storage : AnchorStorage) (call : AnchorCall) :
  AnchorStep storage (finalState (call.run env storage)) :=
  ⟨env, call, rfl⟩

theorem SafeCall.step {env : AnchorEnv} {storage : AnchorStorage} {call : AnchorCall}
  (hSafe : SafeCall env storage call) : SafeStep storage (finalState (call.run env storage)) :=
  ⟨env, call, hSafe, rfl⟩

theorem insertPass_below : (insertPass ((appliedOne 11).insertAppliedTransaction
        (provenAt (repeatedHash 'b' (by decide)) 10))
      (provenAt (repeatedHash 'b' (by decide)) 10)).isSome = true ∧
    ∀ pass ∈ insertPass ((appliedOne 11).insertAppliedTransaction
            (provenAt (repeatedHash 'b' (by decide)) 10))
          (provenAt (repeatedHash 'b' (by decide)) 10),
      pass.Valid ∧ (∀ height ∈ range' pass.fromHeight
              (passEnd pass.fromHeight pass.toHeight + 1 - pass.fromHeight),
          Passes resolvesTen ((appliedOne 11).insertAppliedTransaction
              (provenAt (repeatedHash 'b' (by decide)) 10))
            pass.topic pass.blockHashHints pass.forceResolve height) ∧
        WithinSlice ((appliedOne 11).insertAppliedTransaction
            (provenAt (repeatedHash 'b' (by decide)) 10))
          pass := by
  unfold AnchorPass.Valid WithinSlice
  decide +kernel

/- A proof below a chain is stored safely. -/
theorem safeCall_below : SafeCall resolvesTen (appliedOne 11) (.insertApplied
      (provenAt (repeatedHash 'b' (by decide)) 10)) := by
  rcases insertPass_below with ⟨hSome, hAll⟩
  rcases isSome_iff_exists.mp hSome with ⟨pass, hPass⟩
  rcases hAll pass hPass with ⟨hValid, hPasses, hWithin⟩
  rw [SafeCall, hPass]
  exact safePass_of_completes ⟨hValid, hPasses⟩ hWithin

theorem anchorChain_of_safe_run_below : AnchorChain (appliedTwo 11 10) ['t', 'm'] :=
  anchorChain_of_safe_run (.tail (.single (safeCall_insertApplied_empty resolvesTen
          (provenAt (repeatedHash 'a' (by decide)) 11)).step)
      safeCall_below.step)
    ['t', 'm']

def reorganizedTwo : AnchorStorage :=
  finalState ((AnchorCall.handleReorg
      { orphanedBlockHashes := []
        rebuildFromHeight := 10
        newTipHeight := 11 }).run resolvesTen (appliedTwo 10 11))

theorem reorganizedTwo_stale :
  ((reorganizedTwo.findTopicBlockAnchor ['t', 'm'] 11).all fun anchor =>
      anchor.tac ≠ computeTac (tacBelow (reorganizedTwo.findTopicBlockAnchor ['t', 'm'] 10))
          anchor.blockHash anchor.basmRoot) = true ∧
    (reorganizedTwo.findTopicBlockAnchor ['t', 'm'] 11).isSome = true := by
  decide +kernel

theorem not_anchorChain_of_run :
  ¬∀ storage, Relation.ReflTransGen AnchorStep {} storage →
        ∀ topic, AnchorChain storage topic := by
  intro hAll
  have hFirst : AnchorStep {} (appliedOne 10) := anchorStep_run resolvesTen {} _
  have hSecond : AnchorStep (appliedOne 10) (appliedTwo 10 11) :=
    anchorStep_run resolvesTen (appliedOne 10) _
  have hReorg : AnchorStep (appliedTwo 10 11) reorganizedTwo :=
    anchorStep_run resolvesTen (appliedTwo 10 11) _
  have hRun : Relation.ReflTransGen AnchorStep {} reorganizedTwo :=
    .tail (.tail (.single hFirst) hSecond) hReorg
  rcases reorganizedTwo_stale with ⟨hStale, hSome⟩
  rcases Option.isSome_iff_exists.mp hSome with ⟨anchor, hFind⟩
  rw [hFind] at hStale
  have hLinks := (hAll reorganizedTwo hRun ['t', 'm']).linked.linked 11 anchor hFind
  simp only [Option.all_some, decide_eq_true_eq] at hStale
  exact hStale hLinks

end TsStack.Overlay
