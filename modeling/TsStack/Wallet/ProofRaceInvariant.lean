import TsStack.Wallet.ProofRace

/-
  What is known while a request is broadcast and proved.

  A broadcaster that read the request before it was completed
  would write an older status over it.  As long as no proof
  is stored while it holds such an entity, what it holds has
  the status of the row, once the row is completed.
-/

-- Facts

namespace TsStack.Wallet

/- The entity that the broadcaster will still write. -/
def PostStage.entity : PostStage → Option ProofReq
| .validating req => some req
| .merging req => some req
| .posting req => some req
| .saving req _ => some req
| .confirming req _ => some req
| .settling req _ _ => some req
| .checking req _ => some req
| .marking req _ _ => some req
| _ => none

def PostStage.isStale (stage : PostStage) : Bool :=
  match stage.entity with
  | none => false
  | some req => req.status != .completed

/- The part of a world that the facts are about. -/
structure RaceView where
  req : ProofReq
  provenTxs : List (String × Nat)

def ProofWorld.view (world : ProofWorld) : RaceView where
  req := world.req
  provenTxs := world.provenTxs

def Knows (view : RaceView) (req : ProofReq) : Prop :=
  ∀ id, req.provenId = some id → view.req.provenId = some id

def Applied (req : ProofReq) (outcome : PostOutcome) : Prop :=
  isAdvanced outcome.seen = false ∧ req.status = outcome.prescribed

def OutcomeHolds (view : RaceView) : PostStage → Prop
| .confirming req _ => isAdvanced req.status = false
| .saving req (.settling outcome) => Applied req outcome
| .saving req (.finished outcome) =>
  Applied req outcome ∧ (view.req.status = outcome.prescribed ∨ view.req.status = .completed)
| .settling req _ outcome =>
  Applied req outcome ∧ (view.req.status = outcome.prescribed ∨ view.req.status = .completed)
| .checking req outcome =>
  Applied req outcome ∧ (view.req.status = outcome.prescribed ∨ view.req.status = .completed)
| .marking req _ outcome =>
  Applied req outcome ∧ (view.req.status = outcome.prescribed ∨ view.req.status = .completed)
| .finished outcome => view.req.status = outcome.prescribed ∨ view.req.status = .completed
| _ => True

structure PostHolds (view : RaceView) (stage : PostStage) : Prop where
  fresh : view.req.status = .completed → ∀ req, stage.entity = some req → req.status = .completed
  ahead : ∀ req, stage.entity = some req → req.status = .completed → view.req.status = .completed
  known : ∀ req, stage.entity = some req → Knows view req
  outcome : OutcomeHolds view stage

def ProofStageHolds (view : RaceView) : ProofStage → Prop
| .loading txid => txid = view.req.txid
| .finding txid req => txid = view.req.txid ∧ Knows view req ∧
    req.provenId.isSome = true
| .inserting txid req => txid = view.req.txid ∧ Knows view req
| .saving req provenTxId =>
  req.status = .completed ∧ req.provenTxId = some provenTxId ∧ view.req.provenId = some provenTxId
| _ => True

structure RaceView.Holds (view : RaceView) : Prop where
  linked : ∀ id, view.req.provenId = some id → view.provenTxs.filter (·.1 == view.req.txid) =
        [(view.req.txid, id)]
  positive : ∀ proven ∈ view.provenTxs, 0 < proven.2

structure RaceHolds (world : ProofWorld) : Prop where
  view : world.view.Holds
  posting : PostHolds world.view world.posting
  proofs : ∀ stage ∈ world.proofs, ProofStageHolds world.view stage

-- Requests

namespace ProofReq

variable {row entity req : ProofReq} {id : Nat}

theorem provenId_eq_some_iff : req.provenId = some id ↔ req.provenTxId = some id ∧ 0 < id := by
  unfold provenId
  rw [Option.filter_eq_some_iff, decide_eq_true_eq]

theorem provenId_writeDynamics (hKnown : ∀ id, entity.provenId = some id → row.provenId = some id) :
  (row.writeDynamics entity).provenId = row.provenId := by
  cases hEntity : entity.provenId with
  | none =>
    unfold writeDynamics
    rw [hEntity]
    rfl
  | some id =>
    rw [hKnown id hEntity, provenId_eq_some_iff]
    unfold writeDynamics
    rw [hEntity]
    exact ⟨rfl, (provenId_eq_some_iff.mp hEntity).2⟩

theorem provenId_writeDynamics_some (hEntity : entity.provenId = some id) :
  (row.writeDynamics entity).provenId = some id := by
  rw [provenId_eq_some_iff]
  unfold writeDynamics
  rw [hEntity]
  exact ⟨rfl, (provenId_eq_some_iff.mp hEntity).2⟩

theorem keys_addMissingIds (req : ProofReq) (ids : List Nat) :
  (req.addMissingIds ids).status = req.status ∧ (req.addMissingIds ids).provenTxId =
      req.provenTxId := by
  unfold addMissingIds
  induction ids generalizing req with
  | nil => exact ⟨rfl, rfl⟩
  | cons id ids ih =>
    rw [List.foldl_cons]
    split
    · exact ih req
    · exact ih (req.addNotifyTransactionId id)

end ProofReq

-- Steps that write no request

variable {world next : ProofWorld} {task : Nat}

/- The broadcaster goes on, and writes nothing. -/
theorem RaceHolds.setPosting (hHold : RaceHolds world) (hView : next.view = world.view)
  (hProofs : next.proofs = world.proofs) (hPost : PostHolds world.view next.posting) :
  RaceHolds next := by
  constructor
  · rw [hView]
    exact hHold.view
  · rw [hView]
    exact hPost
  · rw [hView, hProofs]
    exact hHold.proofs

variable
    {view : RaceView} {stage : PostStage}

theorem postHolds_of_none (hEntity : stage.entity = none) (hOut : OutcomeHolds view stage) :
  PostHolds view stage := by
  constructor
  · intro _ req hReq
    rw [hEntity] at hReq
    cases hReq
  · intro req hReq
    rw [hEntity] at hReq
    cases hReq
  · intro req hReq
    rw [hEntity] at hReq
    cases hReq
  · exact hOut

theorem PostHolds.carry
  {after : PostStage} (hHold : PostHolds view stage) (hEntity : after.entity = stage.entity)
  (hOut : OutcomeHolds view after) : PostHolds view after := by
  constructor
  · rw [hEntity]
    exact hHold.fresh
  · rw [hEntity]
    exact hHold.ahead
  · rw [hEntity]
    exact hHold.known
  · exact hOut

/-
  An entity whose status is changed to one that does not
  complete it, while the row is not completed.
-/
theorem PostHolds.change {after : PostStage} {req changed : ProofReq} (hHold : PostHolds view stage)
  (hStage : stage.entity = some req) (hOpen : req.status ≠ .completed)
  (hAfter : after.entity = some changed) (hStat : changed.status ≠ .completed)
  (hProof : changed.provenTxId = req.provenTxId) (hOut : OutcomeHolds view after) :
  PostHolds view after := by
  have hRow : view.req.status ≠ .completed := by
    intro hDone
    exact hOpen (hHold.fresh hDone req hStage)
  constructor
  · intro hDone
    exact absurd hDone hRow
  · intro other hOther hDone
    rw [hAfter] at hOther
    rw [← Option.some.inj hOther] at hDone
    exact absurd hDone hStat
  · intro other hOther id hId
    rw [hAfter] at hOther
    rw [← Option.some.inj hOther, ProofReq.provenId_eq_some_iff, hProof,
      ← ProofReq.provenId_eq_some_iff] at hId
    exact hHold.known req hStage id hId
  · exact hOut

theorem RaceHolds.setProof
  (hHold : RaceHolds world) {stage : ProofStage} (hStage : ProofStageHolds world.view stage)
  (task : Nat) : RaceHolds (world.setProof task stage) := by
  refine ⟨hHold.view, hHold.posting, ?_⟩
  intro other hOther
  rcases List.mem_or_eq_of_mem_set hOther with hOld | rfl
  · exact hHold.proofs other hOld
  · exact hStage

-- Steps that write the request

variable {before after : RaceView}

theorem ProofStageHolds.write {stage : ProofStage} (hStage : ProofStageHolds before stage)
  (hTxid : after.req.txid = before.req.txid)
  (hProof : ∀ id, before.req.provenId = some id → after.req.provenId = some id) :
  ProofStageHolds after stage := by
  cases stage with
  | loading txid =>
    change txid = after.req.txid
    rw [hTxid]
    exact hStage
  | finding txid req =>
    rcases hStage with ⟨hSame, hKnown, hSome⟩
    refine ⟨?_, ?_, hSome⟩
    · rw [hTxid]
      exact hSame
    · exact fun id hId => hProof id (hKnown id hId)
  | inserting txid req =>
    rcases hStage with ⟨hSame, hKnown⟩
    refine ⟨?_, ?_⟩
    · rw [hTxid]
      exact hSame
    · exact fun id hId => hProof id (hKnown id hId)
  | saving req provenTxId => exact ⟨hStage.1, hStage.2.1, hProof _ hStage.2.2⟩
  | _ => trivial

theorem RaceHolds.store (hHold : RaceHolds world) (hTxid : next.req.txid = world.req.txid)
  (hProof : next.req.provenId = world.req.provenId) (hProven : next.provenTxs = world.provenTxs)
  (hPost : PostHolds next.view next.posting)
  (hProofs : ∀ stage ∈ next.proofs, stage ∈ world.proofs ∨ ProofStageHolds next.view stage) :
  RaceHolds next := by
  refine ⟨⟨?_, ?_⟩, hPost, ?_⟩
  · intro id hId
    change next.req.provenId = some id at hId
    rw [hProof] at hId
    change next.provenTxs.filter (·.1 == next.req.txid) = [(next.req.txid, id)]
    rw [hProven, hTxid]
    exact hHold.view.linked id hId
  · change ∀ proven ∈ next.provenTxs, 0 < proven.2
    rw [hProven]
    exact hHold.view.positive
  · intro stage hStage
    rcases hProofs stage hStage with hOld | hNew
    · apply (hHold.proofs stage hOld).write hTxid
      intro id hId
      change next.req.provenId = some id
      rw [hProof]
      exact hId
    · exact hNew

/- What the broadcaster knows where the row keeps its status. -/
theorem PostHolds.sameStatus
  (hHold : PostHolds before stage) (hStat : after.req.status = before.req.status)
  (hProof : ∀ id, before.req.provenId = some id → after.req.provenId = some id) :
  PostHolds after stage := by
  refine ⟨?_, ?_, ?_, ?_⟩
  · rw [hStat]
    exact hHold.fresh
  · rw [hStat]
    exact hHold.ahead
  · intro req hReq id hId
    exact hProof id (hHold.known req hReq id hId)
  · have hOut := hHold.outcome
    unfold OutcomeHolds at hOut ⊢
    rw [hStat]
    exact hOut

/- What the broadcaster knows once the row is completed. -/
theorem PostHolds.completed (hHold : PostHolds before stage) (hStale : stage.isStale = false)
  (hStat : after.req.status = .completed)
  (hProof : ∀ id, before.req.provenId = some id → after.req.provenId = some id) :
  PostHolds after stage := by
  have hFresh : ∀ req, stage.entity = some req → req.status = .completed := by
    intro req hReq
    unfold PostStage.isStale at hStale
    rw [hReq] at hStale
    exact bne_eq_false_iff_eq.mp hStale
  refine ⟨fun _ => hFresh, fun _ _ _ => hStat, ?_, ?_⟩
  · intro req hReq id hId
    exact hProof id (hHold.known req hReq id hId)
  · have hOut := hHold.outcome
    unfold OutcomeHolds at hOut ⊢
    split at hOut
    · exact hOut
    · exact hOut
    · exact ⟨hOut.1, .inr hStat⟩
    · exact ⟨hOut.1, .inr hStat⟩
    · exact ⟨hOut.1, .inr hStat⟩
    · exact ⟨hOut.1, .inr hStat⟩
    · exact .inr hStat
    · trivial

end TsStack.Wallet
