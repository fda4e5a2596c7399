import TsStack.Wallet.EntityConvergence
import TsStack.Wallet.SyncShape

/-
  What processing a chunk does: the merge calls it makes,
  the ids that are mapped at each of them, and the counts,
  dates and ids of the sync map it leaves.
-/

-- Merged Entities

open List

namespace TsStack.Wallet

open SyncMap

def Mapped (syncMap : SyncMap) (name : EntityName) (id : Nat) : Prop :=
  ((syncMap name).idMap id).isSome = true

instance
  (syncMap : SyncMap) (name : EntityName) (id : Nat) : Decidable (Mapped syncMap name id) := by
  unfold Mapped
  infer_instance

/- The ids that are mapped are mapped to the target's rows. -/
def LocalIds.Agrees (localIds : LocalIds) (syncMap : SyncMap) : Prop :=
  ∀ name inId outId, (syncMap name).idMap inId = some outId → outId = localIds.id name inId

@[simp] theorem SyncMap.set_self (syncMap : SyncMap) (name : EntityName) (esm : EntitySyncMap) :
  syncMap.set name esm name = esm :=
  if_pos rfl

theorem SyncMap.set_of_ne
  (syncMap : SyncMap) {name other : EntityName} (esm : EntitySyncMap) (hNe : other ≠ name) :
  syncMap.set name esm other = syncMap other :=
  if_neg hNe

def latestDate (date : Option Int) (entities : List SyncEntity) : Option Int :=
  entities.foldl (fun date ei => MergeEntity.maxDate date ei.updatedAt) date

namespace EntitySyncState

variable {localIds : LocalIds}

structure Merges (localIds : LocalIds) (name : EntityName) (entities : List SyncEntity)
  (before after : SyncMap) : Prop where
  agrees : localIds.Agrees after
  others : ∀ other, other ≠ name → after other = before other
  count : (after name).count = (before name).count
  maxUpdatedAt : (after name).maxUpdatedAt = latestDate (before name).maxUpdatedAt entities
  mapped : ∀ id, Mapped after name id ↔ Mapped before name id ∨ ∃ ei ∈ entities, ei.id = some id

theorem mergeEntity_spec
  (name : EntityName) (syncMap : SyncMap) (ei : SyncEntity) (hAgrees : localIds.Agrees syncMap) :
  ∃ after, mergeEntity localIds name syncMap ei = .ok after ∧
      Merges localIds name [ei] syncMap after := by
  unfold mergeEntity
  dsimp only
  cases hId : ei.id with
  | none =>
    refine ⟨_, rfl, ?_, ?_, ?_, ?_, ?_⟩
    · intro other inId outId hMap
      apply hAgrees other inId outId
      by_cases hOther : other = name
      · subst hOther
        rw [set_self] at hMap
        exact hMap
      · rw [set_of_ne _ _ hOther] at hMap
        exact hMap
    · intro other hOther
      exact set_of_ne _ _ hOther
    · rw [set_self]
    · rw [set_self]
      rfl
    · intro id
      unfold Mapped
      rw [set_self]
      simp [hId]
  | some inId =>
    have hPos := ei.id_pos inId hId
    have hUpd :=
      MergeEntity.updateSyncMap_eq_ok (syncMap name).idMap hPos (localIds.id_pos name inId)
        (fun current hCur => hAgrees name inId current hCur)
    dsimp only
    rw [hUpd]
    refine ⟨_, rfl, ?_, ?_, ?_, ?_, ?_⟩
    · intro other otherId outId hMap
      by_cases hOther : other = name
      · subst hOther
        rw [set_self] at hMap
        dsimp only at hMap
        by_cases hOtherId : otherId = inId
        · rw [if_pos hOtherId] at hMap
          rw [hOtherId]
          exact (Option.some.inj hMap).symm
        · rw [if_neg hOtherId] at hMap
          exact hAgrees other otherId outId hMap
      · rw [set_of_ne _ _ hOther] at hMap
        exact hAgrees other otherId outId hMap
    · intro other hOther
      exact set_of_ne _ _ hOther
    · rw [set_self]
    · rw [set_self]
      rfl
    · intro id
      unfold Mapped
      rw [set_self]
      by_cases hOther : id = inId
      · simp [hId, hOther]
      · have hNe : ¬inId = id := fun hEq => hOther hEq.symm
        simp [hId, hOther, hNe]

theorem Merges.cons {name : EntityName} {ei : SyncEntity} {entities : List SyncEntity}
  {before between after : SyncMap} (hFst : Merges localIds name [ei] before between)
  (hRest : Merges localIds name entities between after) :
  Merges localIds name (ei :: entities) before after where
  agrees := hRest.agrees
  others other hOther := (hRest.others other hOther).trans (hFst.others other hOther)
  count := hRest.count.trans hFst.count
  maxUpdatedAt := by
    rw [hRest.maxUpdatedAt, hFst.maxUpdatedAt]
    rfl
  mapped id := by
    rw [hRest.mapped id, hFst.mapped id]
    simp [or_assoc]

theorem mergeEntities_spec (name : EntityName) (syncMap : SyncMap) (entities : List SyncEntity)
  (hAgrees : localIds.Agrees syncMap) :
  ∃ after calls, mergeEntities localIds name syncMap entities = .ok (after, calls) ∧
      Merges localIds name entities syncMap after ∧
      (calls.map fun call => (call.name, call.ei)) = (entities.map fun ei => (name, ei)) ∧
      ∀ call ∈ calls, ∀ other, other ≠ name → call.syncMap other = syncMap other := by
  induction entities generalizing syncMap with
  | nil =>
    refine ⟨syncMap, [], rfl, ?_, rfl, ?_⟩
    · refine ⟨hAgrees, fun _ _ => rfl, rfl, rfl, ?_⟩
      intro id
      simp
    · intro call hCall
      cases hCall
  | cons ei entities ih =>
    rcases mergeEntity_spec name syncMap ei hAgrees with ⟨between, hMerge, hFst⟩
    rcases ih between hFst.agrees with ⟨after, calls, hEntities, hRest, hHanded, hOth⟩
    refine ⟨after, ⟨name, ei, syncMap⟩ :: calls, ?_, hFst.cons hRest, ?_, ?_⟩
    · unfold mergeEntities
      rw [hMerge]
      dsimp only [bind, Except.bind]
      rw [hEntities]
      rfl
    · rw [map_cons, map_cons, hHanded]
    · intro call hCall other hOther
      rcases mem_cons.mp hCall with hEq | hMem
      · rw [hEq]
      · rw [hOth call hMem other hOther]
        exact hFst.others other hOther

end EntitySyncState

-- Processed Kinds

def SyncChunk.items (chunk : SyncChunk) (name : EntityName) : List SyncEntity :=
  (chunk.stateArray name).getD []

/- The rows of some kinds in a chunk, with their kinds. -/
def SyncChunk.handed (chunk : SyncChunk) (names : List EntityName) :
  List (EntityName × SyncEntity) :=
  names.flatMap fun name => (chunk.items name).map fun ei => (name, ei)

/- The kinds have arrays without rows. -/
def SyncChunk.isEmptyOn (chunk : SyncChunk) (names : List EntityName) : Bool :=
  names.all fun name => (chunk.stateArray name).any List.isEmpty

namespace EntitySyncState

variable {localIds : LocalIds} {chunk : SyncChunk}

/-
  What processing some kinds of a chunk leaves, and the calls it makes.  When a row is merged, the
  rows of earlier kinds in the chunk are mapped.
-/
structure Processes (localIds : LocalIds) (chunk : SyncChunk) (names : List EntityName)
  (before after : ProcessState) (calls : List MergeCall) : Prop where
  agrees : localIds.Agrees after.syncMap
  others : ∀ other, other ∉ names → after.syncMap other = before.syncMap other
  count : ∀ name ∈ names, (after.syncMap name).count =
        (before.syncMap name).count + (chunk.items name).length
  maxUpdatedAt : ∀ name ∈ names, (after.syncMap name).maxUpdatedAt =
        latestDate (before.syncMap name).maxUpdatedAt (chunk.items name)
  mapped : ∀ name ∈ names, ∀ id, Mapped after.syncMap name id ↔
        Mapped before.syncMap name id ∨ ∃ ei ∈ chunk.items name, ei.id = some id
  calls_eq : after.calls = before.calls ++ calls
  handed : (calls.map fun call => (call.name, call.ei)) = chunk.handed names
  done_eq : after.done = (before.done && chunk.isEmptyOn names)
  latest : ∀ bound, (∀ date ∈ before.maxUpdatedAt, date ≤ bound) →
        (∀ name ∈ names, ∀ date ∈ (after.syncMap name).maxUpdatedAt, date ≤ bound) →
          ∀ date ∈ after.maxUpdatedAt, date ≤ bound
  call_others : ∀ call ∈ calls, ∀ other, other ∉ names → call.syncMap other = before.syncMap other
  call_earlier : ∀ call ∈ calls, ∀ earlier later, names = earlier ++ call.name :: later →
        ∀ other ∈ earlier, ∀ id, Mapped call.syncMap other id ↔
            Mapped before.syncMap other id ∨ ∃ ei ∈ chunk.items other, ei.id = some id

theorem maxDates_le {first second : Option Int} {bound : Int} (hFst : ∀ date ∈ first, date ≤ bound)
  (hSnd : ∀ date ∈ second, date ≤ bound) : ∀ date ∈ maxDates first second, date ≤ bound := by
  intro date hDate
  cases second with
  | none => exact hFst date hDate
  | some other =>
    have hOther := hSnd other rfl
    cases first with
    | none =>
      cases hDate
      exact hOther
    | some one =>
      have hOne := hFst one rfl
      cases hDate
      omega

def processedState (chunk : SyncChunk) (state : ProcessState) (name : EntityName) (merged : SyncMap)
  (calls : List MergeCall) : ProcessState :=
  { syncMap := merged.set name
        { merged name with
          count := (merged name).count + (chunk.items name).length }
    maxUpdatedAt := maxDates state.maxUpdatedAt (merged name).maxUpdatedAt
    done := state.done && (chunk.stateArray name).any List.isEmpty
    calls := state.calls ++ calls }

theorem processedState_idMap
  (chunk : SyncChunk) (state : ProcessState) (name : EntityName) (merged : SyncMap)
  (calls : List MergeCall) (other : EntityName) :
  ((processedState chunk state name merged calls).syncMap other).idMap =
    (merged other).idMap := by
  unfold processedState
  dsimp only
  by_cases hOther : other = name
  · subst hOther
    rw [set_self]
  · rw [set_of_ne _ _ hOther]

theorem processEntities_spec
  (state : ProcessState) (name : EntityName) (hAgrees : localIds.Agrees state.syncMap) :
  ∃ after calls, processEntities localIds chunk state name = .ok after ∧
      Processes localIds chunk [name] state after
        calls := by
  rcases mergeEntities_spec name state.syncMap (chunk.items name) hAgrees with
    ⟨merged, calls, hMerge, hMerges, hHanded, hCalls⟩
  refine ⟨processedState chunk state name merged calls, calls, ?_, ?_⟩
  · unfold processEntities
    dsimp only
    change mergeEntities localIds name state.syncMap ((chunk.stateArray name).getD []) = _ at hMerge
    rw [hMerge]
    rfl
  · constructor
    case agrees =>
      intro other inId outId hMap
      rw [processedState_idMap] at hMap
      exact hMerges.agrees other inId outId hMap
    case others =>
      intro other hOther
      have hNe := mt mem_singleton.mpr hOther
      exact (set_of_ne _ _ hNe).trans (hMerges.others other hNe)
    case count =>
      intro other hOther
      rw [mem_singleton.mp hOther]
      unfold processedState
      dsimp only
      rw [set_self, hMerges.count]
    case maxUpdatedAt =>
      intro other hOther
      rw [mem_singleton.mp hOther]
      unfold processedState
      dsimp only
      rw [set_self]
      exact hMerges.maxUpdatedAt
    case mapped =>
      intro other hOther id
      rw [mem_singleton.mp hOther]
      unfold Mapped
      rw [processedState_idMap]
      exact hMerges.mapped id
    case calls_eq => rfl
    case handed =>
      rw [hHanded]
      unfold SyncChunk.handed
      simp
    case done_eq =>
      unfold SyncChunk.isEmptyOn processedState
      simp
    case latest =>
      intro bound hState hName
      apply maxDates_le hState
      intro date hDate
      apply hName name (mem_singleton_self name)
      unfold processedState
      dsimp only
      rw [set_self]
      exact hDate
    case call_others =>
      intro call hCall other hOther
      exact hCalls call hCall other (mt mem_singleton.mpr hOther)
    case call_earlier =>
      intro call _ earlier later hNames other hOther
      have hLen := congrArg length hNames
      rw [length_append, length_cons, length_cons, length_nil] at hLen
      have hNil : earlier = [] := eq_nil_of_length_eq_zero (by omega)
      rw [hNil] at hOther
      cases hOther

theorem Processes.name_mem
  {names : List EntityName} {before after : ProcessState} {calls : List MergeCall}
  (hProcesses : Processes localIds chunk names before after calls) {call : MergeCall}
  (hCall : call ∈ calls) : call.name ∈ names := by
  have hMem : (call.name, call.ei) ∈ chunk.handed names := by
    rw [← hProcesses.handed]
    exact List.mem_map_of_mem hCall
  unfold SyncChunk.handed at hMem
  rcases mem_flatMap.mp hMem with ⟨name, hName, hMem⟩
  rcases List.mem_map.mp hMem with ⟨ei, -, hEq⟩
  rw [← (Prod.mk.inj hEq).1]
  exact hName

theorem Processes.cons
  {name : EntityName} {names : List EntityName} {before between after : ProcessState}
  {calls calls' : List MergeCall} (hFresh : name ∉ names)
  (hFst : Processes localIds chunk [name] before between calls)
  (hRest : Processes localIds chunk names between after calls') :
  Processes localIds chunk (name :: names) before after (calls ++ calls') := by
  have hNe : ∀ other ∈ names, other ∉ [name] := by
    intro other hOther hMem
    rw [mem_singleton.mp hMem] at hOther
    exact hFresh hOther
  have hSelf := mem_singleton_self name
  have hHead := hRest.others name hFresh
  constructor
  case agrees => exact hRest.agrees
  case others =>
    intro other hOther
    rw [hRest.others other (fun hMem => hOther (mem_cons_of_mem _ hMem))]
    apply hFst.others
    intro hMem
    rw [mem_singleton.mp hMem] at hOther
    exact hOther mem_cons_self
  case count =>
    intro other hOther
    rcases mem_cons.mp hOther with hEq | hMem
    · rw [hEq, hHead]
      exact hFst.count name hSelf
    · rw [hRest.count other hMem, hFst.others other (hNe other hMem)]
  case maxUpdatedAt =>
    intro other hOther
    rcases mem_cons.mp hOther with hEq | hMem
    · rw [hEq, hHead]
      exact hFst.maxUpdatedAt name hSelf
    · rw [hRest.maxUpdatedAt other hMem, hFst.others other (hNe other hMem)]
  case mapped =>
    intro other hOther id
    rcases mem_cons.mp hOther with hEq | hMem
    · rw [hEq]
      unfold Mapped
      rw [hHead]
      exact hFst.mapped name hSelf id
    · rw [hRest.mapped other hMem id]
      unfold Mapped
      rw [hFst.others other (hNe other hMem)]
  case calls_eq => rw [hRest.calls_eq, hFst.calls_eq, append_assoc]
  case handed =>
    rw [map_append, hFst.handed, hRest.handed]
    unfold SyncChunk.handed
    rw [flatMap_cons, flatMap_cons, flatMap_nil, append_nil]
  case done_eq =>
    rw [hRest.done_eq, hFst.done_eq, Bool.and_assoc]
    unfold SyncChunk.isEmptyOn
    rw [all_cons, all_cons, all_nil, Bool.and_true]
  case latest =>
    intro bound hPre hNames
    apply hRest.latest bound
    · apply hFst.latest bound hPre
      intro other hOther date hDate
      rw [mem_singleton.mp hOther] at hDate
      rw [← hHead] at hDate
      exact hNames name mem_cons_self date hDate
    · intro other hOther
      exact hNames other (mem_cons_of_mem _ hOther)
  case call_others =>
    intro call hCall other hOther
    have hMem : other ∉ names := fun hIn => hOther (mem_cons_of_mem _ hIn)
    have hNotName : other ∉ [name] := by
      intro hIn
      rw [mem_singleton.mp hIn] at hOther
      exact hOther mem_cons_self
    rcases mem_append.mp hCall with hFstCall | hRestCall
    · exact hFst.call_others call hFstCall other hNotName
    · rw [hRest.call_others call hRestCall other hMem]
      exact hFst.others other hNotName
  case call_earlier =>
    intro call hCall earlier later hNames other hOther id
    cases earlier with
    | nil => cases hOther
    | cons head earlier =>
      rcases List.cons.inj hNames with ⟨hHeadEq, hTail⟩
      subst hHeadEq
      have hCallMem : call.name ∈ names := by
        rw [hTail]
        exact mem_append_right _ mem_cons_self
      have hCall' : call ∈ calls' := by
        rcases mem_append.mp hCall with hIn | hIn
        · exact absurd (hFst.name_mem hIn) (hNe _ hCallMem)
        · exact hIn
      rcases mem_cons.mp hOther with hEq | hMem
      · -- The rows of the first kind are all merged.
        rw [hEq]
        unfold Mapped
        rw [hRest.call_others call hCall' name hFresh]
        exact hFst.mapped name hSelf id
      · have hOtherMem : other ∈ names := by
          rw [hTail]
          exact mem_append_left _ hMem
        rw [hRest.call_earlier call hCall' earlier later hTail other hMem id]
        unfold Mapped
        rw [hFst.others other (hNe other hOtherMem)]

theorem foldlM_processEntities
  (names : List EntityName) (state : ProcessState) (hNodup : names.Nodup)
  (hAgrees : localIds.Agrees state.syncMap) :
  ∃ after calls, names.foldlM (processEntities localIds chunk) state = .ok after ∧
      Processes localIds chunk names state after
        calls := by
  induction names generalizing state with
  | nil =>
    refine ⟨state, [], rfl, hAgrees, fun _ _ => rfl, ?_, ?_, ?_, (append_nil _).symm, rfl,
      (Bool.and_true _).symm, ?_, ?_, ?_⟩
    · intro name hName
      cases hName
    · intro name hName
      cases hName
    · intro name hName
      cases hName
    · intro bound hState _ date hDate
      exact hState date hDate
    · intro call hCall
      cases hCall
    · intro call hCall
      cases hCall
  | cons name names ih =>
    rcases nodup_cons.mp hNodup with ⟨hFresh, hNodup⟩
    rcases @processEntities_spec localIds chunk state name hAgrees with
      ⟨between, calls, hKind, hFst⟩
    rcases ih between hNodup hFst.agrees with ⟨after, calls', hFold, hRest⟩
    refine ⟨after, calls ++ calls', ?_, hFst.cons hFresh hRest⟩
    rw [foldlM_cons, hKind]
    exact hFold

theorem processSyncChunk_spec
  (state : EntitySyncState) (chunk : SyncChunk) (hAgrees : localIds.Agrees state.syncMap) :
  ∃ result last calls, state.processSyncChunk localIds chunk = .ok result ∧
      Processes localIds chunk EntityName.all
        { syncMap := state.syncMap
          maxUpdatedAt := (chunk.user.filter (mergesUser state.user)).map SyncUser.updatedAt
          done := true
          calls := [] }
        last calls ∧
      result.calls = calls ∧ result.done = chunk.isEmptyOn EntityName.all ∧
      result.state.user = (chunk.user.map (mergeUser state.user)).getD state.user ∧
      (result.done = true → result.state.when = last.maxUpdatedAt ∧
          result.state.syncMap = fun name => { last.syncMap name with count := 0 }) ∧
      (result.done = false → result.state.when = state.when ∧
          result.state.syncMap = last.syncMap) := by
  rcases @foldlM_processEntities localIds chunk EntityName.all
      { syncMap := state.syncMap
        maxUpdatedAt := (chunk.user.filter (mergesUser state.user)).map SyncUser.updatedAt
        done := true
        calls := [] }
      EntityName.nodup_all hAgrees with
    ⟨last, calls, hFold, hProcesses⟩
  have hCalls : last.calls = calls := hProcesses.calls_eq
  have hDone : last.done = chunk.isEmptyOn EntityName.all := hProcesses.done_eq
  unfold processSyncChunk
  dsimp only
  rw [hFold]
  dsimp only [bind, Except.bind]
  by_cases hLast : last.done = true
  · rw [if_pos hLast]
    refine ⟨_, last, calls, rfl, hProcesses, hCalls, hLast.symm.trans hDone, rfl,
      fun _ => ⟨rfl, rfl⟩, ?_⟩
    intro hFalse
    cases hFalse
  · rw [if_neg hLast]
    refine ⟨_, last, calls, rfl, hProcesses, hCalls,
      (Bool.eq_false_iff.mpr hLast).symm.trans hDone, rfl, ?_, fun _ => ⟨rfl, rfl⟩⟩
    intro hTrue
    cases hTrue

end EntitySyncState

end TsStack.Wallet
