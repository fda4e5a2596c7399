import TsStack.Lib.EventRun
import TsStack.Wallet.ProofSteps
import TsStack.Wallet.ProofStore

/-
  A proof that is stored wins over a broadcast.

  In a run in which no proof is stored while the broadcaster
  holds an older entity, a completed request stays completed
  with its proof, its transactions stay completed, and none
  of its inputs is released; and a request that is not
  completed has the status that the broadcast prescribes.
-/

-- Keys

open List Option

namespace TsStack.Wallet

open ProofWorld ProofReq

variable {world next : ProofWorld} {event : ProofEvent} {answer : ServiceAnswer}

theorem sameKeys_resumePosting (hStep : world.resumePosting answer world.posting = some next) :
  SameKeys world.toEntityStorage next.toEntityStorage := by
  have hSame : ∀ storage : EntityStorage, SameKeys storage storage := SameKeys.refl
  cases hPost : world.posting with
  | idle =>
    rw [hPost] at hStep
    cases hStep
  | validating req =>
    rw [hPost] at hStep
    cases hStep
    unfold afterValidating
    split <;> exact hSame _
  | merging req =>
    rw [hPost] at hStep
    cases hStep
    unfold afterMerging
    split <;> exact hSame _
  | posting req =>
    rw [hPost] at hStep
    cases hStep
    unfold afterPosting
    split <;> exact hSame _
  | saving req after =>
    rw [hPost] at hStep
    cases hStep
    exact hSame _
  | refreshing tally =>
    rw [hPost] at hStep
    cases hStep
    unfold afterRefreshing
    simp only
    split
    · exact hSame _
    · split <;> exact hSame _
  | confirming req tally =>
    rw [hPost] at hStep
    cases hStep
    unfold afterConfirming
    split <;> exact hSame _
  | settling req ids outcome =>
    rw [hPost] at hStep
    cases hStep
    unfold afterSettling
    split
    · exact hSame _
    · rename_i storage hUpd
      exact sameKeys_updateTransactionsStatus hUpd
  | checking req outcome =>
    rw [hPost] at hStep
    cases hStep
    unfold afterChecking
    split
    · exact hSame _
    · simp only
      split
      · exact hSame _
      · split <;> exact hSame _
  | marking req stale outcome =>
    rw [hPost] at hStep
    cases hStep
    cases stale with
    | nil => exact hSame _
    | cons id rest => exact sameKeys_updateOutput _ id fun _ => rfl
  | stopped =>
    rw [hPost] at hStep
    cases hStep
  | finished outcome =>
    rw [hPost] at hStep
    cases hStep

section

variable (hKeys : KeysUnique world.toEntityStorage)

include hKeys

theorem recovered_own {now : Int} {prepared : List Nat}
  {verdicts : List (Nat × Option Bool)} {storage : EntityStorage}
  (hRun : (world.ownTransactions.filter isFailed).foldlM
      (EntityStorage.restoreTransactionForProof now
        ((rawInputs world.req).getD []) prepared
        verdicts) world.toEntityStorage = some storage) :
  Recovered ((world.ownTransactions.filter isFailed).map (·.transactionId))
    ((rawInputs world.req).getD []) world.toEntityStorage storage :=
  recovered_restoreTransactions hKeys (fun _ hTx => List.mem_map_of_mem hTx) hRun

theorem sameKeys_resumeProof {task : Nat} {stage : ProofStage}
  (hStep : world.resumeProof task answer stage = some next) :
  SameKeys world.toEntityStorage next.toEntityStorage := by
  have hSame : ∀ storage : EntityStorage, SameKeys storage storage := SameKeys.refl
  cases stage with
  | loading txid =>
    cases hStep
    unfold afterLoading
    simp only
    split
    · exact hSame _
    · split <;> exact hSame _
  | finding txid req =>
    cases hStep
    unfold afterFinding
    split
    · split <;> exact hSame _
    · exact hSame _
  | inserting txid req =>
    cases hStep
    unfold afterInserting
    split
    · split <;> exact hSame _
    · exact hSame _
  | saving req provenTxId =>
    cases hStep
    exact hSame _
  | reconciling provenTxId repairAttempts =>
    cases hStep
    unfold afterReconciling
    split
    · exact hSame _
    · split
      · split <;> exact hSame _
      · exact sameKeys_notify _ _ _ _
  | unfailing provenTxId repairAttempts =>
    cases hStep
    unfold afterUnfailing
    split <;> exact hSame _
  | preparing provenTxId repairAttempts prepared =>
    cases hStep
    unfold afterPreparing
    split <;> exact hSame _
  | restoring provenTxId repairAttempts prepared verdicts =>
    cases hStep
    unfold afterRestoring
    split
    · exact hSame _
    · rename_i storage hRestored
      exact (recovered_own hKeys hRestored).keys
  | returned => cases hStep
  | thrown => cases hStep

theorem sameKeys_step (hStep : world.step event = some next) :
  SameKeys world.toEntityStorage next.toEntityStorage := by
  cases event with
  | post =>
    unfold step at hStep
    simp only at hStep
    split at hStep
    · cases hStep
      exact SameKeys.refl _
    · cases hStep
  | postResume answer => exact sameKeys_resumePosting hStep
  | prove txid =>
    cases hStep
    exact SameKeys.refl _
  | proofResume task answer =>
    rcases bind_eq_some_iff.mp hStep with ⟨stage, -, hResume⟩
    exact sameKeys_resumeProof hKeys hResume

end

-- Completed requests

structure Kept (before after : ProofWorld) : Prop where
  status : after.req.status = .completed
  proof : ∀ id, before.req.provenId = some id → after.req.provenId = some id
  txid : after.req.txid = before.req.txid
  rawTx : after.req.rawTx = before.req.rawTx
  store : StoreKept before.req.txid ((ProofWorld.rawInputs before.req).getD [])
      before.toEntityStorage after.toEntityStorage

variable {world middle next : ProofWorld} {req : ProofReq} {outcome : PostOutcome}

theorem Kept.trans (hFst : Kept world middle) (hSnd : Kept middle next) : Kept world next := by
  have hInputs : rawInputs middle.req = rawInputs world.req := by
    unfold rawInputs
    rw [hFst.rawTx]
  have hStore := hSnd.store
  rw [hInputs, hFst.txid] at hStore
  exact ⟨hSnd.status,
    fun id hId => hSnd.proof id (hFst.proof id hId), hSnd.txid.trans hFst.txid,
    hSnd.rawTx.trans hFst.rawTx, hFst.store.trans hStore⟩

/- Nothing was written. -/
theorem kept_of_still (hDone : world.req.status = .completed) (hReq : next.req = world.req)
  (hStore : next.toEntityStorage = world.toEntityStorage) : Kept world next := by
  refine ⟨?_, ?_, ?_, ?_, ?_⟩
  · rw [hReq]
    exact hDone
  · rw [hReq]
    exact fun _ hId => hId
  · rw [hReq]
  · rw [hReq]
  · rw [hStore]
    exact StoreKept.refl _ _ _

theorem kept_of_write
  (hReq : next.req = world.req.writeDynamics req) (hStat : req.status = .completed)
  (hProof : ∀ id, world.req.provenId = some id → next.req.provenId = some id)
  (hStore : StoreKept world.req.txid ((rawInputs world.req).getD [])
      world.toEntityStorage next.toEntityStorage) :
  Kept world next := by
  refine ⟨?_, hProof, ?_, ?_, hStore⟩
  · rw [hReq]
    exact hStat
  · rw [hReq]
    rfl
  · rw [hReq]
    rfl

theorem Applied.open (hApplied : Applied req outcome) : req.status ≠ .completed := by
  rcases hApplied with ⟨hSeen, hStat⟩
  rw [hStat]
  unfold PostOutcome.prescribed
  rw [if_neg (by rw [hSeen]; exact Bool.false_ne_true)]
  cases outcome.aggregate <;> nofun

/-
  The broadcaster settles no transaction of a completed
  request, since what it holds is completed as well.
-/
theorem kept_resumePosting (hHold : RaceHolds world) (hDone : world.req.status = .completed)
  (hStep : world.resumePosting answer world.posting = some next) : Kept world next := by
  have hPost := hHold.posting
  have hStill : ∀ stage, Kept world (world.setPosting stage) := fun _ => kept_of_still hDone rfl rfl
  cases hPosting : world.posting with
  | idle =>
    rw [hPosting] at hStep
    cases hStep
  | validating req =>
    rw [hPosting] at hStep
    cases hStep
    unfold afterValidating
    split <;> exact hStill _
  | merging req =>
    rw [hPosting] at hStep
    cases hStep
    unfold afterMerging
    split <;> exact hStill _
  | posting req =>
    rw [hPosting] at hStep
    cases hStep
    unfold afterPosting
    split <;> exact hStill _
  | saving req after =>
    rw [hPosting] at hStep hPost
    cases hStep
    have hKnown := hPost.known req rfl
    refine kept_of_write rfl (hPost.fresh hDone req rfl) ?_ (StoreKept.refl _ _ _)
    intro id hId
    exact (provenId_writeDynamics hKnown).trans hId
  | refreshing tally =>
    rw [hPosting] at hStep
    cases hStep
    unfold afterRefreshing
    simp only
    split
    · exact hStill _
    · split <;> exact hStill _
  | confirming req tally =>
    rw [hPosting] at hStep
    cases hStep
    unfold afterConfirming
    split <;> exact hStill _
  | settling req ids outcome =>
    rw [hPosting] at hPost
    exact absurd (hPost.fresh hDone req rfl) hPost.outcome.1.open
  | checking req outcome =>
    rw [hPosting] at hPost
    exact absurd (hPost.fresh hDone req rfl) hPost.outcome.1.open
  | marking req stale outcome =>
    rw [hPosting] at hPost
    exact absurd (hPost.fresh hDone req rfl) hPost.outcome.1.open
  | stopped =>
    rw [hPosting] at hStep
    cases hStep
  | finished outcome =>
    rw [hPosting] at hStep
    cases hStep

theorem kept_complete (hDone : world.req.status = .completed) {id : Nat}
  (hProof : ∀ other, world.req.provenId = some other → (world.req.writeDynamics
          (completed req id)).provenId =
        some other)
  (task : Nat) : Kept world (world.complete task req id) := by
  by_cases hBy : isCompletedBy req id = true
  · have hReq : (world.complete task req id).req = world.req := if_pos hBy
    exact kept_of_still hDone hReq rfl
  · have hReq :
        (world.complete task req id).req = world.req.writeDynamics (completed req id) :=
      if_neg hBy
    refine kept_of_write hReq rfl ?_ (StoreKept.refl _ _ _)
    rw [hReq]
    exact hProof

theorem kept_afterInserting
  (hHold : RaceHolds world) (hDone : world.req.status = .completed) {txid : String}
  (hStage : ProofStageHolds world.view (.inserting txid req)) (task : Nat)
  (answer : ServiceAnswer) : Kept world (world.afterInserting task txid req answer) := by
  obtain rfl : txid = world.req.txid := hStage.1
  unfold afterInserting
  split
  · split
    · rename_i hNone
      -- without a stored proof the row has none to lose
      have hGrown : Kept world
            { world with
              provenTxs := world.provenTxs ++ [(world.req.txid, world.lastProvenTxId + 1)]
              lastProvenTxId := world.lastProvenTxId + 1 } :=
        kept_of_still hDone rfl rfl
      refine hGrown.trans (kept_complete ?_ ?_ task)
      · exact hDone
      intro other hOther
      have hLinked := hHold.view.linked other hOther
      cases hNone.symm.trans hLinked
    · rename_i proven hFound
      rcases findProvenTxs_eq_singleton hFound with ⟨hIn, hPair⟩
      exact kept_complete hDone (fun _ =>
        provenId_complete hHold.view (hHold.view.positive proven hIn) hPair) task
    · exact kept_of_still hDone rfl rfl
  · exact kept_of_still hDone rfl rfl

theorem kept_of_bookkeeping (hDone : world.req.status = .completed) {ids : List Nat}
  (hNext : next.req = world.req.writeDynamics req)
  (hReq : req.status = (world.req.unpackApi.addMissingIds ids).status ∧
      req.provenTxId = (world.req.unpackApi.addMissingIds ids).provenTxId)
  (hStore : StoreKept world.req.txid ((rawInputs world.req).getD [])
      world.toEntityStorage next.toEntityStorage) :
  Kept world next := by
  rcases keys_addMissingIds world.req.unpackApi ids with ⟨hStat, hId⟩
  refine kept_of_write hNext (hReq.1.trans (hStat.trans hDone)) ?_ hStore
  intro id hSome
  rw [hNext, provenId_writeDynamics]
  · exact hSome
  · intro other hOther
    rw [provenId_eq_some_iff, hReq.2, hId, ← provenId_eq_some_iff] at hOther
    exact hOther

section

variable
    (hHold : RaceHolds world)
    (hKeys : KeysUnique world.toEntityStorage)
    (hDone : world.req.status = .completed)

include hHold hKeys hDone

theorem kept_resumeProof {task : Nat} {stage : ProofStage}
  (hStage : world.proofs[task]? = some stage)
  (hStep : world.resumeProof task answer stage = some next) : Kept world next := by
  have hKnows : ProofStageHolds world.view stage :=
    hHold.proofs stage (mem_of_getElem? hStage)
  have hStill : ∀ stage, Kept world (world.setProof task stage) :=
    fun _ => kept_of_still hDone rfl rfl
  cases stage with
  | loading txid =>
    cases hStep
    unfold afterLoading
    simp only
    split
    · exact hStill _
    · split <;> exact hStill _
  | finding txid req =>
    cases hStep
    unfold afterFinding
    split
    · split <;> exact hStill _
    · exact hStill _
  | inserting txid req =>
    cases hStep
    exact kept_afterInserting hHold hDone hKnows task answer
  | saving req provenTxId =>
    cases hStep
    rcases hKnows with ⟨hStat, hProof, hRow⟩
    refine kept_of_write rfl hStat ?_ (StoreKept.refl _ _ _)
    intro id hId
    rw [← hId]
    apply provenId_writeDynamics
    intro other hOther
    rw [provenId_eq_some_iff, hProof] at hOther
    rw [← some.inj hOther.1]
    exact hRow
  | reconciling provenTxId repairAttempts =>
    cases hStep
    unfold afterReconciling
    split
    · exact hStill _
    · split
      · split <;> exact hStill _
      · exact kept_of_bookkeeping hDone rfl ⟨rfl, rfl⟩ (storeKept_notify _ _ _ _)
  | unfailing provenTxId repairAttempts =>
    cases hStep
    unfold afterUnfailing
    split <;> exact hStill _
  | preparing provenTxId repairAttempts prepared =>
    cases hStep
    unfold afterPreparing
    split <;> exact hStill _
  | restoring provenTxId repairAttempts prepared verdicts =>
    cases hStep
    unfold afterRestoring
    split
    · exact hStill _
    · rename_i storage hRestored
      refine kept_of_bookkeeping hDone rfl ⟨rfl, rfl⟩
        ((recovered_own hKeys hRestored).storeKept hKeys ?_)
      intro tx hTx
      rcases mem_filter.mp hTx with ⟨hOwn, hFail⟩
      rcases mem_filter.mp hOwn with ⟨hIn, hTxid⟩
      exact ⟨hIn, beq_iff_eq.mp hTxid, beq_iff_eq.mp hFail⟩
  | returned => cases hStep
  | thrown => cases hStep

theorem kept_of_step (hStep : world.step event = some next) : Kept world next := by
  cases event with
  | post =>
    unfold step at hStep
    simp only at hStep
    split at hStep
    · cases hStep
      exact kept_of_still hDone rfl rfl
    · cases hStep
  | postResume answer => exact kept_resumePosting hHold hDone hStep
  | prove txid =>
    cases hStep
    exact kept_of_still hDone rfl rfl
  | proofResume task answer =>
    rcases bind_eq_some_iff.mp hStep with ⟨stage, hStage, hResume⟩
    exact kept_resumeProof hHold hKeys hDone hStage hResume

end

-- Runs

/-
  No broadcast and no proof has begun; the rows have keys of
  their own, and a proof that the request has is stored.
-/
structure RaceStarts (world : ProofWorld) : Prop where
  posting : world.posting = .idle
  proofs : world.proofs = []
  view : world.view.Holds
  keys : KeysUnique world.toEntityStorage

def LandsSafely (world : ProofWorld) (event : ProofEvent) (_ : ProofWorld) : Prop :=
  landsSafely world event = true

instance
  (world : ProofWorld) (event : ProofEvent) (next : ProofWorld) :
  Decidable (LandsSafely world event next) :=
  inferInstanceAs (Decidable (landsSafely world event = true))

variable {start middle last : ProofWorld} {events : List ProofEvent}

theorem raceHolds_of_starts (hStarts : RaceStarts start) : RaceHolds start := by
  refine ⟨hStarts.view, ?_, ?_⟩
  · rw [hStarts.posting]
    exact postHolds_of_none rfl trivial
  · rw [hStarts.proofs]
    nofun

section

variable (hHold : RaceHolds start) (hKeys : KeysUnique start.toEntityStorage)

include hHold hKeys

theorem raceHolds_of_run (hRun : start.runs events = some last)
  (hSafe : EventRun.Along step LandsSafely start events) :
  RaceHolds last ∧ KeysUnique last.toEntityStorage := by
  have hKeep : ∀ world event next, (RaceHolds world ∧ KeysUnique world.toEntityStorage) →
        step world event = some next → LandsSafely world event next → RaceHolds next ∧
          KeysUnique next.toEntityStorage := by
    rintro world event next ⟨hPre, hUnique⟩ hStep hLands
    exact ⟨hPre.step hStep hLands, hUnique.sameKeys (sameKeys_step hUnique hStep)⟩
  exact EventRun.inv_of_along hKeep events ⟨hHold, hKeys⟩ hRun hSafe

theorem kept_of_run (hDone : start.req.status = .completed) (hRun : start.runs events = some last)
  (hSafe : EventRun.Along step LandsSafely start events) : Kept start last := by
  induction events generalizing start with
  | nil =>
    cases hRun
    exact kept_of_still hDone rfl rfl
  | cons event events ih =>
    unfold runs at hRun
    rw [foldlM_cons] at hRun
    rcases bind_eq_some_iff.mp hRun with ⟨next, hStep, hRest⟩
    rcases (EventRun.along_cons hStep).mp hSafe with ⟨hLands, hLater⟩
    have hKept : Kept start next := kept_of_step hHold hKeys hDone hStep
    exact hKept.trans (ih (hHold.step hStep hLands) (hKeys.sameKeys (sameKeys_step hKeys hStep))
      hKept.status hRest hLater)

end

/-
  A proof that is stored wins: a completed request keeps its status, its proof and what it settled
  to the end of every run that lands safely.  A request that is not completed has the status that
  its result prescribes.
-/
theorem proof_wins {early late : List ProofEvent} (hStarts : RaceStarts start)
  (hEarly : start.runs early = some middle) (hLate : middle.runs late = some last)
  (hSafe : EventRun.Along ProofWorld.step LandsSafely start (early ++ late)) :
  (middle.req.status = .completed → Kept middle last) ∧
    ∀ outcome, last.posting = .finished outcome → last.req.status = outcome.prescribed ∨
        last.req.status = .completed := by
  rcases (EventRun.along_append hEarly).mp hSafe with ⟨hSafeEarly, hSafeLate⟩
  rcases raceHolds_of_run (raceHolds_of_starts hStarts) hStarts.keys hEarly hSafeEarly with
    ⟨hMiddle, hKeysMiddle⟩
  refine ⟨?_, ?_⟩
  · intro hDone
    exact kept_of_run hMiddle hKeysMiddle hDone hLate hSafeLate
  · intro outcome hFinished
    rcases raceHolds_of_run hMiddle hKeysMiddle hLate hSafeLate with ⟨hLast, -⟩
    have hOutcome := hLast.posting.outcome
    rw [hFinished] at hOutcome
    exact hOutcome

def raceStart : ProofWorld where
  transactions :=
    [{ createdAt := 0, updatedAt := 0, transactionId := 7,
        userId := 1, status := .sending, reference := "",
        isOutgoing := true, satoshis := 0,
        txid := some "aa" }]
  req :=
    { provenTxReqId := 1, txid := "aa", status := .unsent,
      rawTx := some [], inputBEEF := some [],
      transactionIds := some [7] }

theorem raceStarts_raceStart : RaceStarts raceStart := by
  refine ⟨rfl, rfl, ⟨?_, nofun⟩, ⟨?_, ?_⟩⟩
  · intro id hId
    cases hId
  · exact nodup_nil
  · exact nodup_singleton 7

/- The services take the transaction. -/
def acceptedAnswer : ServiceAnswer where
  results := [{ success := true }]

def safeRun : List ProofEvent :=
  [.post, .postResume {}, .postResume {}, .postResume acceptedAnswer, .postResume {},
    .prove "aa", .proofResume 0 {}, .proofResume 0 {}]

def safeRest : List ProofEvent :=
  [.postResume {}, .proofResume 0 {}]

def statuses (world : ProofWorld) :
  ProvenTxReqStatus × Option Nat × List TransactionStatus :=
  (world.req.status, world.req.provenTxId, world.transactions.map (·.status))

theorem proof_wins_safeRun :
  ∃ middle last, raceStart.runs safeRun = some middle ∧ middle.runs safeRest = some last ∧
        middle.req.status = .completed ∧ Kept middle last := by
  have hSafe : EventRun.Along ProofWorld.step LandsSafely raceStart (safeRun ++ safeRest) := by
    decide +kernel
  have hStatuses : (raceStart.runs safeRun).map statuses =
      some (.completed, some 1, [.sending]) := by
    decide +kernel
  have hEnds : ((raceStart.runs safeRun).bind (·.runs safeRest)).isSome = true := by decide +kernel
  rcases Option.map_eq_some_iff.mp hStatuses with ⟨middle, hMiddle, hOf⟩
  rcases Option.isSome_iff_exists.mp hEnds with ⟨last, hLast⟩
  rw [hMiddle] at hLast
  have hDone : middle.req.status = .completed := congrArg Prod.fst hOf
  exact ⟨middle, last, hMiddle, hLast, hDone,
      (proof_wins raceStarts_raceStart hMiddle hLast hSafe).1 hDone⟩

/- The proof is stored while the services are asked. -/
def lostRun : List ProofEvent :=
  [.post, .postResume {}, .postResume {}, .prove "aa", .proofResume 0 {}, .proofResume 0 {},
    .proofResume 0 {}]

def lostRest : List ProofEvent :=
  [.postResume acceptedAnswer, .postResume {}, .postResume {}, .postResume {}]

/-
  A proof that is stored while the services are asked loses: the request was completed with the
  proof, and then it is unmined again.
-/
theorem proof_during_broadcast_lost :
  RaceStarts raceStart ∧ (raceStart.runs lostRun).map statuses =
      some (.completed, some 1, [.completed]) ∧
    (raceStart.runs (lostRun ++ lostRest)).map statuses = some (.unmined, some 1, [.completed]) :=
  ⟨raceStarts_raceStart, by decide +kernel, by decide +kernel⟩

end TsStack.Wallet
