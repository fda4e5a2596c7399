import TsStack.Wallet.ProofRaceInvariant

/-
  Steps of a broadcast and of proofs keep what is known.

  A proof that is stored while the broadcaster holds an older
  entity would be forgotten; every other step, whatever the
  services answer, keeps what is known.
-/

-- Steps of the broadcaster

open List

namespace TsStack.Wallet

variable {world : ProofWorld} {req : ProofReq} {outcome : PostOutcome} {tally : PostTally}
variable {answer : ServiceAnswer}

section

variable (hHold : RaceHolds world)

include hHold

theorem RaceHolds.stage {stage : PostStage} (hStage : PostHolds world.view stage) :
  RaceHolds (world.setPosting stage) :=
  hHold.setPosting rfl rfl hStage

theorem RaceHolds.halt : RaceHolds (world.setPosting .stopped) :=
  hHold.stage (postHolds_of_none rfl trivial)

theorem RaceHolds.afterValidating (hPosting : world.posting = .validating req)
  (hGood : req.status = .completed → req.isComplete = true) :
  RaceHolds (world.afterValidating req) := by
  have hPost := hHold.posting
  rw [hPosting] at hPost
  unfold ProofWorld.afterValidating
  split
  · exact hHold.stage (hPost.carry rfl trivial)
  · rename_i hLacks
    have hOpen : req.status ≠ .completed := fun hDone => hLacks (hGood hDone)
    exact hHold.stage (hPost.change rfl hOpen rfl nofun rfl trivial)

theorem RaceHolds.afterMerging (hPosting : world.posting = .merging req)
  (hGood : req.status = .completed → answer.ok = false → (ProofWorld.mergeFailed req
        answer.isUnknownTxid).status = .completed) :
  RaceHolds (world.afterMerging req answer) := by
  have hPost := hHold.posting
  rw [hPosting] at hPost
  have hProof : (ProofWorld.mergeFailed req answer.isUnknownTxid).provenTxId =
        req.provenTxId := by
    unfold ProofWorld.mergeFailed
    split <;> rfl
  have hStat : req.status ≠ .completed → (ProofWorld.mergeFailed req
        answer.isUnknownTxid).status ≠ .completed := by
    intro hOpen
    unfold ProofWorld.mergeFailed
    split
    · nofun
    · exact hOpen
  unfold ProofWorld.afterMerging
  split
  · exact hHold.stage (hPost.carry rfl trivial)
  · rename_i hFail
    rw [Bool.not_eq_true] at hFail
    by_cases hDone : req.status = .completed
    · have hKept := hGood hDone hFail
      refine hHold.stage ⟨?_, ?_, ?_, trivial⟩
      · intro _ other hOther
        rw [← Option.some.inj hOther]
        exact hKept
      · intro other _ _
        exact hPost.ahead req rfl hDone
      · intro other hOther id hId
        rw [← Option.some.inj hOther, ProofReq.provenId_eq_some_iff, hProof,
          ← ProofReq.provenId_eq_some_iff] at hId
        exact hPost.known req rfl id hId
    · exact hHold.stage (hPost.change rfl hDone rfl (hStat hDone) hProof trivial)

theorem RaceHolds.afterPosting (hPosting : world.posting = .posting req) :
  RaceHolds (world.afterPosting req answer) := by
  have hPost := hHold.posting
  rw [hPosting] at hPost
  unfold ProofWorld.afterPosting
  split
  · exact hHold.stage (hPost.carry rfl trivial)
  · exact hHold.halt

end

/- What follows a write finds in the row what was written. -/
theorem postHolds_afterSaved
  {view : RaceView} (hStat : view.req.status = req.status) (hKnown : Knows view req)
  {next : AfterSaving}
  (hNext : ∀ outcome, next = .settling outcome ∨ next = .finished outcome → Applied req outcome) :
  PostHolds view (ProofWorld.afterSaved req next) := by
  have hEntity : ∀ {stage : PostStage},
      stage.entity = some req → OutcomeHolds view stage → PostHolds view stage := by
    intro stage hStage hOut
    refine ⟨?_, ?_, ?_, hOut⟩
    · intro hDone other hOther
      rw [hStage] at hOther
      rw [← Option.some.inj hOther, ← hStat]
      exact hDone
    · intro other hOther hDone
      rw [hStage] at hOther
      rw [hStat, Option.some.inj hOther]
      exact hDone
    · intro other hOther
      rw [hStage] at hOther
      rw [← Option.some.inj hOther]
      exact hKnown
  have hSettle : ∀ outcome : PostOutcome, Applied req outcome →
        PostHolds view (ProofWorld.afterSettled req outcome) := by
    intro outcome hApplied
    have hRow : view.req.status = outcome.prescribed := hStat.trans hApplied.2
    unfold ProofWorld.afterSettled
    split
    · exact hEntity rfl ⟨hApplied, .inl hRow⟩
    · exact postHolds_of_none rfl (Or.inl hRow)
  cases next with
  | stopped => exact postHolds_of_none rfl trivial
  | refreshing tally => exact postHolds_of_none rfl trivial
  | settling outcome =>
    have hApplied := hNext outcome (Or.inl rfl)
    have hRow : view.req.status = outcome.prescribed := hStat.trans hApplied.2
    unfold ProofWorld.afterSaved
    simp only
    split
    · exact hEntity rfl ⟨hApplied, .inl hRow⟩
    · exact hSettle outcome hApplied
  | finished outcome =>
    have hApplied := hNext outcome (Or.inr rfl)
    exact postHolds_of_none rfl (Or.inl (hStat.trans hApplied.2))

theorem RaceHolds.afterSaving
  (hHold : RaceHolds world) {next : AfterSaving} (hPosting : world.posting = .saving req next) :
  RaceHolds (world.afterSaving req next) := by
  have hPost := hHold.posting
  rw [hPosting] at hPost
  have hKnown := hPost.known req rfl
  have hProof : (world.req.writeDynamics req).provenId =
        world.req.provenId :=
    ProofReq.provenId_writeDynamics hKnown
  have hStill : Knows (world.afterSaving req next).view req := by
    intro id hId
    change (world.req.writeDynamics req).provenId = some id
    rw [hProof]
    exact hKnown id hId
  have hStat : (world.afterSaving req next).view.req.status =
    req.status := rfl
  refine hHold.store rfl hProof rfl ?_ fun _ => .inl
  apply postHolds_afterSaved hStat hStill
  have hOut := hPost.outcome
  rintro outcome (rfl | rfl)
  · exact hOut
  · exact hOut.1

theorem RaceHolds.applyResult (hHold : RaceHolds world) (hOpen : world.req.status ≠ .completed)
  (hAdvanced : isAdvanced req.status = false) (hKnown : Knows world.view req)
  (aggregate : AggregateStatus) : RaceHolds (world.applyResult req aggregate) := by
  have hStat : aggregate.newReqStatus ≠ .completed := by
    cases aggregate <;> nofun
  refine hHold.stage ⟨?_, ?_, ?_, ?_⟩
  · intro hDone
    exact absurd hDone hOpen
  · intro other hOther hDone
    rw [← Option.some.inj hOther] at hDone
    exact absurd hDone hStat
  · intro other hOther
    rw [← Option.some.inj hOther]
    exact hKnown
  · refine ⟨hAdvanced, ?_⟩
    change aggregate.newReqStatus = PostOutcome.prescribed ⟨req.status, aggregate⟩
    unfold PostOutcome.prescribed
    rw [if_neg (by rw [hAdvanced]; exact Bool.false_ne_true)]

theorem ne_completed_of_isAdvanced
  {status : ProvenTxReqStatus} (hAdvanced : isAdvanced status = false) : status ≠ .completed := by
  rintro rfl
  cases hAdvanced

/- The row is read again just before the result is applied. -/
theorem RaceHolds.afterRefreshing (hHold : RaceHolds world) (tally : PostTally) :
  RaceHolds (world.afterRefreshing tally) := by
  unfold ProofWorld.afterRefreshing
  simp only
  split
  · rename_i hAdvanced
    refine hHold.stage (postHolds_of_none rfl (Or.inl ?_))
    change world.req.status = PostOutcome.prescribed ⟨world.req.status, tally.status⟩
    unfold PostOutcome.prescribed
    exact (if_pos hAdvanced).symm
  · rename_i hAdvanced
    rw [Bool.not_eq_true] at hAdvanced
    have hOpen : world.req.status ≠ .completed := ne_completed_of_isAdvanced hAdvanced
    have hKnown : Knows world.view world.req.unpackApi := fun _ hId => hId
    split
    · refine hHold.stage ⟨?_, ?_, ?_, hAdvanced⟩
      · intro hDone
        exact absurd hDone hOpen
      · intro other hOther hDone
        rw [← Option.some.inj hOther] at hDone
        exact hDone
      · intro other hOther
        rw [← Option.some.inj hOther]
        exact hKnown
    · exact hHold.applyResult hOpen hAdvanced hKnown _

theorem RaceHolds.afterConfirming
  (hHold : RaceHolds world) (hPosting : world.posting = .confirming req tally) :
  RaceHolds (world.afterConfirming req tally answer) := by
  have hPost := hHold.posting
  rw [hPosting] at hPost
  have hAdvanced : isAdvanced req.status = false := hPost.outcome
  have hOpen : world.req.status ≠ .completed := by
    intro hDone
    exact ne_completed_of_isAdvanced hAdvanced (hPost.fresh hDone req rfl)
  unfold ProofWorld.afterConfirming
  split
  · exact hHold.applyResult hOpen hAdvanced (hPost.known req rfl) _
  · exact hHold.halt

theorem PostHolds.afterSettled {view : RaceView} {stage : PostStage} (hPost : PostHolds view stage)
  (hEntity : stage.entity = some req) (hOut :
    Applied req outcome ∧ (view.req.status = outcome.prescribed ∨ view.req.status = .completed)) :
  PostHolds view (ProofWorld.afterSettled req outcome) := by
  unfold ProofWorld.afterSettled
  split
  · exact hPost.carry hEntity.symm hOut
  · exact postHolds_of_none rfl hOut.2

theorem RaceHolds.afterSettling (hHold : RaceHolds world) {ids : List Nat}
  (hPosting : world.posting = .settling req ids outcome) :
  RaceHolds (world.afterSettling req ids outcome answer) := by
  have hPost := hHold.posting
  rw [hPosting] at hPost
  unfold ProofWorld.afterSettling
  split
  · exact hHold.halt
  · exact hHold.setPosting rfl rfl (hPost.afterSettled rfl hPost.outcome)

theorem RaceHolds.afterChecking
  (hHold : RaceHolds world) (hPosting : world.posting = .checking req outcome) :
  RaceHolds (world.afterChecking req outcome answer) := by
  have hPost := hHold.posting
  rw [hPosting] at hPost
  have hOut := hPost.outcome
  unfold ProofWorld.afterChecking
  split
  · exact hHold.halt
  · simp only
    split
    · exact hHold.halt
    · split
      · exact hHold.stage (postHolds_of_none rfl hOut.2)
      · exact hHold.stage (hPost.carry rfl hOut)

theorem RaceHolds.afterMarking (hHold : RaceHolds world) {stale : List Nat}
  (hPosting : world.posting = .marking req stale outcome) :
  RaceHolds (world.afterMarking req outcome answer stale) := by
  have hPost := hHold.posting
  rw [hPosting] at hPost
  have hOut := hPost.outcome
  cases stale with
  | nil => exact hHold.stage (hPost.carry rfl hOut)
  | cons id rest => exact hHold.setPosting rfl rfl (hPost.carry rfl hOut)

-- Steps of a proof

variable {task : Nat} {txid : String}

theorem RaceHolds.afterLoading (hHold : RaceHolds world) (hTxid : txid = world.req.txid) :
  RaceHolds (world.afterLoading task txid) := by
  have hKnown : Knows world.view world.req.unpackApi := fun _ hId => hId
  have hThrown : ProofStageHolds world.view .thrown := trivial
  have hInserting : ProofStageHolds world.view (.inserting txid world.req.unpackApi) :=
    ⟨hTxid, hKnown⟩
  unfold ProofWorld.afterLoading
  simp only
  split
  · exact hHold.setProof hThrown task
  · split
    · rename_i hSome
      have hFinding : ProofStageHolds world.view (.finding txid world.req.unpackApi) :=
        ⟨hTxid, hKnown, hSome⟩
      exact hHold.setProof hFinding task
    · exact hHold.setProof hInserting task

theorem RaceHolds.afterFinding
  (hHold : RaceHolds world) (hStage : ProofStageHolds world.view (.finding txid req)) :
  RaceHolds (world.afterFinding task txid req) := by
  obtain rfl : txid = world.req.txid := hStage.1
  rcases hStage with ⟨-, hKnown, hSome⟩
  rcases Option.isSome_iff_exists.mp hSome with ⟨id, hId⟩
  have hLinked := hHold.view.linked id (hKnown id hId)
  have hThrown : ProofStageHolds world.view .thrown := trivial
  have hReconciling : ∀ id count, ProofStageHolds world.view (.reconciling id count) :=
    fun _ _ => trivial
  unfold ProofWorld.afterFinding
  split
  · rename_i proven hFound
    have hProven : proven.2 = id := by
      have hSame := hFound.symm.trans hLinked
      rw [(List.cons.inj hSame).1]
    split
    · exact hHold.setProof (hReconciling _ _) task
    · have hSaving : ProofStageHolds world.view (.saving (ProofWorld.completed req proven.2)
              proven.2) := by
        refine ⟨rfl, rfl, ?_⟩
        rw [hProven]
        exact hKnown id hId
      exact hHold.setProof hSaving task
  · exact hHold.setProof hThrown task

variable {id : Nat}

theorem findProvenTxs_eq_singleton {proven : String × Nat} {txid : String}
  (hFound : world.findProvenTxs txid = [proven]) :
  proven ∈ world.provenTxs ∧ world.findProvenTxs txid = [(txid, proven.2)] := by
  have hMem : proven ∈ world.findProvenTxs txid := by
    rw [hFound]
    exact mem_singleton_self proven
  rcases mem_filter.mp hMem with ⟨hIn, hName⟩
  refine ⟨hIn, ?_⟩
  rw [hFound]
  exact congrArg (fun name => [(name, proven.2)]) (beq_iff_eq.mp hName)

theorem provenId_complete (hView : world.view.Holds) {other : Nat} (hId : 0 < id)
  (hProven : world.findProvenTxs world.req.txid = [(world.req.txid, id)])
  (hOther : world.req.provenId = some other) :
  (world.req.writeDynamics (ProofWorld.completed req id)).provenId = some other := by
  have hLinked := hView.linked other hOther
  have hPair := hProven.symm.trans hLinked
  have hSame : id = other := (Prod.mk.inj (List.cons.inj hPair).1).2
  rw [← hSame]
  exact ProofReq.provenId_writeDynamics_some (ProofReq.provenId_eq_some_iff.mpr ⟨rfl, hId⟩)

section

variable (hHold : RaceHolds world)

include hHold

/-
  The row is completed while the broadcaster holds nothing
  older; its proof is the one that is stored for its txid.
-/
theorem RaceHolds.complete (hStale : world.posting.isStale = false) (hId : 0 < id)
  (hProven : world.findProvenTxs world.req.txid = [(world.req.txid, id)]) (task : Nat) :
  RaceHolds (world.complete task req id) := by
  have hReconciling : ∀ view, ProofStageHolds view (.reconciling id 0) := fun _ => trivial
  unfold ProofWorld.complete
  split
  · exact hHold.setProof (hReconciling _) task
  · have hAfter : (world.req.writeDynamics (ProofWorld.completed req id)).provenId = some id :=
      ProofReq.provenId_writeDynamics_some (ProofReq.provenId_eq_some_iff.mpr ⟨rfl, hId⟩)
    have hSame : ∀ other, world.req.provenId = some other →
          (world.req.writeDynamics (ProofWorld.completed req id)).provenId = some other :=
      fun _ => provenId_complete hHold.view hId hProven
    refine ⟨⟨?_, hHold.view.positive⟩, ?_, ?_⟩
    · intro other hOther
      change (world.req.writeDynamics _).provenId = some other at hOther
      rw [hAfter] at hOther
      rw [← Option.some.inj hOther]
      exact hProven
    · exact hHold.posting.completed hStale rfl hSame
    · intro stage hStage
      rcases mem_or_eq_of_mem_set hStage with hOld | rfl
      · exact (hHold.proofs stage hOld).write rfl hSame
      · trivial

theorem RaceHolds.afterInserting (hStale : world.posting.isStale = false)
  (hStage : ProofStageHolds world.view (.inserting txid req)) :
  RaceHolds (world.afterInserting task txid req answer) := by
  obtain rfl : txid = world.req.txid := hStage.1
  have hThrown : ProofStageHolds world.view .thrown := trivial
  unfold ProofWorld.afterInserting
  split
  · split
    · rename_i hNone
      have hNoProof : world.req.provenId = none := by
        cases hId : world.req.provenId with
        | none => rfl
        | some id =>
          have hLinked := hHold.view.linked id hId
          have hAbsent := hNone.symm.trans hLinked
          cases hAbsent
      have hGrown : RaceHolds
            { world with
              provenTxs := world.provenTxs ++ [(world.req.txid, world.lastProvenTxId + 1)]
              lastProvenTxId := world.lastProvenTxId + 1 } := by
        refine ⟨⟨?_, ?_⟩, ?_, ?_⟩
        · intro id hId
          change world.req.provenId = some id at hId
          rw [hNoProof] at hId
          cases hId
        · intro proven hMem
          rcases mem_append.mp hMem with hOld | hNew
          · exact hHold.view.positive proven hOld
          · rw [mem_singleton.mp hNew]
            exact Nat.succ_pos _
        · exact hHold.posting.sameStatus rfl fun _ hId => hId
        · intro stage hMem
          exact (hHold.proofs stage hMem).write rfl fun _ hId => hId
      have hNew : (world.provenTxs ++
              [(world.req.txid, world.lastProvenTxId + 1)]).filter (·.1 == world.req.txid) =
            [(world.req.txid, world.lastProvenTxId + 1)] := by
        have hAbsent : world.provenTxs.filter (·.1 == world.req.txid) = [] := hNone
        rw [filter_append, hAbsent, nil_append]
        simp
      exact hGrown.complete hStale (Nat.succ_pos _) hNew task
    · rename_i proven hFound
      rcases findProvenTxs_eq_singleton hFound with ⟨hIn, hPair⟩
      exact hHold.complete hStale (hHold.view.positive proven hIn) hPair task
    · exact hHold.setProof hThrown task
  · exact hHold.setProof hThrown task

theorem RaceHolds.proofWrite {next : ProofWorld} (hKnown : Knows world.view req)
  (hReq : next.req = world.req.writeDynamics req) (hProven : next.provenTxs = world.provenTxs)
  (hPost : next.posting = world.posting) (hStat :
    req.status = world.req.status ∨ req.status = .completed ∧ world.posting.isStale = false)
  {stage : ProofStage} (hProofs : next.proofs = world.proofs.set task stage)
  (hStage : ∀ view, ProofStageHolds view stage) : RaceHolds next := by
  have hProof : next.req.provenId = world.req.provenId := by
    rw [hReq]
    exact ProofReq.provenId_writeDynamics hKnown
  have hKeeps : ∀ id, world.view.req.provenId = some id → next.view.req.provenId = some id := by
    intro id hId
    change next.req.provenId = some id
    rw [hProof]
    exact hId
  have hWritten : next.view.req.status = req.status := by
    change next.req.status = req.status
    rw [hReq]
    rfl
  refine hHold.store (by rw [hReq]; rfl) hProof hProven ?_ ?_
  · rw [hPost]
    rcases hStat with hSame | ⟨hDone, hStale⟩
    · exact hHold.posting.sameStatus (hWritten.trans hSame) hKeeps
    · exact hHold.posting.completed hStale (hWritten.trans hDone) hKeeps
  · rw [hProofs]
    intro other hOther
    rcases mem_or_eq_of_mem_set hOther with hOld | rfl
    · exact .inl hOld
    · exact .inr (hStage _)

theorem RaceHolds.afterProofSaving (hStale : world.posting.isStale = false)
  (hStage : ProofStageHolds world.view (.saving req id)) :
  RaceHolds (world.afterProofSaving task req id) := by
  rcases hStage with ⟨hDone, hProof, hRow⟩
  have hKnown : Knows world.view req := by
    intro other hOther
    rw [ProofReq.provenId_eq_some_iff, hProof] at hOther
    rw [← Option.some.inj hOther.1]
    exact hRow
  exact hHold.proofWrite hKnown rfl rfl rfl (Or.inr ⟨hDone, hStale⟩) rfl fun _ => trivial

end

theorem knows_addMissingIds (world : ProofWorld) (ids : List Nat) :
  Knows world.view (world.req.unpackApi.addMissingIds ids) := by
  intro id hId
  rw [ProofReq.provenId_eq_some_iff, (ProofReq.keys_addMissingIds _ _).2] at hId
  exact ProofReq.provenId_eq_some_iff.mpr hId

section

variable (hHold : RaceHolds world)

include hHold

theorem RaceHolds.afterReconciling (id count : Nat) :
  RaceHolds (world.afterReconciling task id count answer) := by
  have hThrown : ProofStageHolds world.view .thrown := trivial
  have hUnfailing : ProofStageHolds world.view (.unfailing id (count + 1)) := trivial
  unfold ProofWorld.afterReconciling
  split
  · exact hHold.setProof hThrown task
  · split
    · split
      · exact hHold.setProof hThrown task
      · exact hHold.setProof hUnfailing task
    · have hKnown : Knows world.view
          { world.req.unpackApi.addMissingIds (world.ownTransactions.map (·.transactionId)) with
            notified := true } :=
        knows_addMissingIds world _
      exact hHold.proofWrite hKnown rfl rfl rfl (Or.inl (ProofReq.keys_addMissingIds _ _).1) rfl
        fun _ => trivial

theorem RaceHolds.afterUnfailing (id count : Nat) :
  RaceHolds (world.afterUnfailing task id count) := by
  have hReconciling : ProofStageHolds world.view (.reconciling id count) := trivial
  have hPreparing : ∀ prepared, ProofStageHolds world.view
    (.preparing id count prepared) := fun _ => trivial
  unfold ProofWorld.afterUnfailing
  split
  · exact hHold.setProof hReconciling task
  · exact hHold.setProof (hPreparing _) task

theorem RaceHolds.afterPreparing (id count : Nat) (prepared : List Nat) :
  RaceHolds (world.afterPreparing task id count prepared answer) := by
  have hThrown : ProofStageHolds world.view .thrown := trivial
  have hRestoring : ProofStageHolds world.view (.restoring id count prepared answer.verdicts) :=
    trivial
  unfold ProofWorld.afterPreparing
  split
  · exact hHold.setProof hRestoring task
  · exact hHold.setProof hThrown task

theorem RaceHolds.afterRestoring (id count : Nat) (prepared : List Nat)
  (verdicts : List (Nat × Option Bool)) :
  RaceHolds (world.afterRestoring task id count prepared verdicts answer) := by
  have hThrown : ProofStageHolds world.view .thrown := trivial
  unfold ProofWorld.afterRestoring
  split
  · exact hHold.setProof hThrown task
  · exact hHold.proofWrite (knows_addMissingIds world _) rfl rfl
      rfl (Or.inl (ProofReq.keys_addMissingIds _ _).1) rfl
      fun _ => trivial

end

-- Safe runs

/-
  No proof is stored while the broadcaster holds an entity that is older, and a completed request
  that is posted has its parts and can be merged.
-/
def landsSafely (world : ProofWorld) : ProofEvent → Bool
| .post => true
| .postResume answer =>
  match world.posting with
  | .validating req => req.status != .completed || req.isComplete
  | .merging req =>
    req.status != .completed || answer.ok ||
      (ProofWorld.mergeFailed req answer.isUnknownTxid).status == .completed
  | _ => true
| .prove txid => txid == world.req.txid
| .proofResume task _ =>
  match world.proofs[task]? with
  | some (.inserting _ _) => !world.posting.isStale
  | some (.saving _ _) => !world.posting.isStale
  | _ => true

variable {world next : ProofWorld} {event : ProofEvent}

section

variable (hHold : RaceHolds world)

include hHold

theorem RaceHolds.post : RaceHolds (world.setPosting (.validating world.req.unpackApi)) := by
  refine hHold.stage ⟨?_, ?_, ?_, trivial⟩
  · intro hDone other hOther
    rw [← Option.some.inj hOther]
    exact hDone
  · intro other hOther hDone
    rw [← Option.some.inj hOther] at hDone
    exact hDone
  · intro other hOther id hId
    rw [← Option.some.inj hOther] at hId
    exact hId

theorem RaceHolds.resumePosting (hStep : world.resumePosting answer world.posting = some next)
  (hSafe : landsSafely world (.postResume answer) = true) : RaceHolds next := by
  cases hPost : world.posting with
  | idle =>
    rw [hPost] at hStep
    cases hStep
  | validating req =>
    rw [hPost] at hStep
    cases hStep
    refine hHold.afterValidating hPost ?_
    intro hDone
    simp only [landsSafely, hPost, hDone, bne_self_eq_false, Bool.false_or] at hSafe
    exact hSafe
  | merging req =>
    rw [hPost] at hStep
    cases hStep
    refine hHold.afterMerging hPost ?_
    intro hDone hFail
    simp only [landsSafely, hPost, hDone, hFail, bne_self_eq_false, Bool.false_or,
      beq_iff_eq] at hSafe
    exact hSafe
  | posting req =>
    rw [hPost] at hStep
    cases hStep
    exact hHold.afterPosting hPost
  | saving req after =>
    rw [hPost] at hStep
    cases hStep
    exact hHold.afterSaving hPost
  | refreshing tally =>
    rw [hPost] at hStep
    cases hStep
    exact hHold.afterRefreshing tally
  | confirming req tally =>
    rw [hPost] at hStep
    cases hStep
    exact hHold.afterConfirming hPost
  | settling req ids outcome =>
    rw [hPost] at hStep
    cases hStep
    exact hHold.afterSettling hPost
  | checking req outcome =>
    rw [hPost] at hStep
    cases hStep
    exact hHold.afterChecking hPost
  | marking req stale outcome =>
    rw [hPost] at hStep
    cases hStep
    exact hHold.afterMarking hPost
  | stopped =>
    rw [hPost] at hStep
    cases hStep
  | finished outcome =>
    rw [hPost] at hStep
    cases hStep

theorem RaceHolds.resumeProof {stage : ProofStage} (hStage : world.proofs[task]? = some stage)
  (hStep : world.resumeProof task answer stage = some next)
  (hSafe : landsSafely world (.proofResume task answer) = true) : RaceHolds next := by
  have hKnows : ProofStageHolds world.view stage :=
    hHold.proofs stage (mem_of_getElem? hStage)
  cases stage with
  | loading txid =>
    cases hStep
    exact hHold.afterLoading hKnows
  | finding txid req =>
    cases hStep
    exact hHold.afterFinding hKnows
  | inserting txid req =>
    cases hStep
    simp only [landsSafely, hStage, Bool.not_eq_true'] at hSafe
    exact hHold.afterInserting hSafe hKnows
  | saving req provenTxId =>
    cases hStep
    simp only [landsSafely, hStage, Bool.not_eq_true'] at hSafe
    exact hHold.afterProofSaving hSafe hKnows
  | reconciling provenTxId repairAttempts =>
    cases hStep
    exact hHold.afterReconciling _ _
  | unfailing provenTxId repairAttempts =>
    cases hStep
    exact hHold.afterUnfailing _ _
  | preparing provenTxId repairAttempts prepared =>
    cases hStep
    exact hHold.afterPreparing _ _ _
  | restoring provenTxId repairAttempts prepared verdicts =>
    cases hStep
    exact hHold.afterRestoring _ _ _ _
  | returned => cases hStep
  | thrown => cases hStep

theorem RaceHolds.step (hStep : world.step event = some next)
  (hSafe : landsSafely world event = true) : RaceHolds next := by
  cases event with
  | post =>
    unfold ProofWorld.step at hStep
    simp only at hStep
    split at hStep
    · cases hStep
      exact hHold.post
    · cases hStep
  | postResume answer => exact hHold.resumePosting hStep hSafe
  | prove txid =>
    cases hStep
    have hTxid : txid = world.req.txid := beq_iff_eq.mp hSafe
    refine ⟨hHold.view, hHold.posting, ?_⟩
    intro stage hStage
    rcases mem_concat_iff.mp hStage with hOld | hNew
    · exact hHold.proofs stage hOld
    · rw [hNew]
      exact hTxid
  | proofResume task answer =>
    rcases Option.bind_eq_some_iff.mp hStep with ⟨stage, hStage, hResume⟩
    exact hHold.resumeProof hStage hResume hSafe

end

end TsStack.Wallet
