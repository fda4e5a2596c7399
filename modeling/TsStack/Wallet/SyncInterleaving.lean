import TsStack.Lib.EventRun
import TsStack.Wallet.SyncCompleteness

/-
  A source that is written between the pages of its sync.

  A write sets the date of its row, or of the user, to a
  value that is not before any earlier one.  The rows that
  were handed to merges are recorded beside the state.
-/

-- Writes and Pages

open List

namespace TsStack.Wallet

structure SyncRow (name : EntityName) where
  ei : SyncEntity
  foreign_mem : ∀ foreign ∈ ei.foreignIds, foreign.1 ∈ name.foreignNames

namespace SyncSource

def setRows (source : SyncSource) (name : EntityName) (rows : List SyncEntity)
  (hKeys : (rows.map SyncEntity.key).Nodup)
  (hForeign :
    ∀ ei ∈ rows, ∀ foreign ∈ ei.foreignIds, foreign.1 ∈ name.foreignNames) : SyncSource where
  rows other := if other = name then rows
    else source.rows other
  user := source.user
  keys_nodup other := by
    by_cases hOther : other = name
    · rw [if_pos hOther]
      exact hKeys
    · rw [if_neg hOther]
      exact source.keys_nodup other
  foreign_mem other := by
    by_cases hOther : other = name
    · rw [if_pos hOther, hOther]
      exact hForeign
    · rw [if_neg hOther]
      exact source.foreign_mem other

def insertRow (source : SyncSource) (name : EntityName) (index : Nat) (row : SyncRow name)
  (hFresh : row.ei.key ∉ (source.rows name).map SyncEntity.key) : SyncSource :=
  source.setRows name ((source.rows name).take index ++ row.ei :: (source.rows name).drop index) (by
      rw [List.map_append, List.map_cons,
        List.nodup_middle, ← List.map_append, List.take_append_drop]
      exact List.nodup_cons.mpr ⟨hFresh, source.keys_nodup name⟩)
    (by
      intro ei hEi
      rcases List.mem_append.mp hEi with hIn | hIn
      · exact source.foreign_mem name ei (List.mem_of_mem_take hIn)
      · rcases List.mem_cons.mp hIn with hEq | hIn
        · rw [hEq]
          exact row.foreign_mem
        · exact source.foreign_mem name ei (List.mem_of_mem_drop hIn))

def updateRow (source : SyncSource) (name : EntityName) (row : SyncRow name) : SyncSource :=
  source.setRows name (KeyedRows.update SyncEntity.key row.ei.key
      (fun _ => row.ei) (source.rows name))
    (by
      rw [KeyedRows.update_keys fun _ _ _ => rfl]
      exact source.keys_nodup name)
    (by
      intro ei hEi
      rcases KeyedRows.mem_update_iff.mp hEi with ⟨_, _, _, hEq⟩ | ⟨hIn, _⟩
      · rw [hEq]
        exact row.foreign_mem
      · exact source.foreign_mem name ei hIn)

end SyncSource

structure SyncWorld where
  source : SyncSource
  clock : Int
  state : EntitySyncState
  delivered : EntityName → List SyncEntity

/- What happens next. -/
inductive SyncEvent
| insert
    (name : EntityName) (index : Nat) (row : SyncRow name)
| update
    (name : EntityName) (row : SyncRow name)
| updateUser (user : SyncUser)
| page (limits : PageLimits)

namespace SyncWorld

def step (localIds : LocalIds) (world : SyncWorld) : SyncEvent → Option SyncWorld
| .insert name index row =>
  if hFresh : row.ei.key ∉ (world.source.rows name).map SyncEntity.key then
    if world.clock ≤ row.ei.updatedAt then
      some { world with
        source := world.source.insertRow name index row hFresh
        clock := row.ei.updatedAt }
    else none
  else none
| .update name row =>
  if row.ei.key ∈ (world.source.rows name).map SyncEntity.key ∧ world.clock ≤ row.ei.updatedAt then
    some { world with
      source := world.source.updateRow name row
      clock := row.ei.updatedAt }
  else none
| .updateUser user =>
  if world.clock ≤ user.updatedAt then
    some { world with
      source := { world.source with user := user }
      clock := user.updatedAt }
  else none
| .page limits =>
  match syncPage world.source localIds limits world.state with
  | .error _ => none
  | .ok result =>
    some { world with
      state := result.state
      delivered := fun name => world.delivered name ++ handedTo name result.calls }

-- Properties

variable (world : SyncWorld)

/- The rows that the pass still has to hand to merges. -/
def ahead : EntityName → List SyncEntity :=
  world.state.remaining world.source

/- A version that was not sent and lies behind the offset. -/
def Behind (name : EntityName) (ei : SyncEntity) : Prop :=
  ei ∈ world.source.rows name ∧ ei ∉ world.delivered name ∧ ei ∉ world.ahead name

def UserMerges : Prop :=
  (world.state.when.all fun since => since < world.source.user.updatedAt) = true ∧
    EntitySyncState.mergesUser world.state.user world.source.user = true

/-
  No version behind the offsets is older than a row that is still to be sent, nor than the user's
  record if the pass ends with it.
-/
def SafePage : Prop :=
  ∀ name ei, world.Behind name ei → (∀ other, ∀ next ∈ world.ahead other,
      next.updatedAt ≤ ei.updatedAt) ∧
      ((∀ other, world.ahead other = []) → world.UserMerges →
          world.source.user.updatedAt ≤ ei.updatedAt)

/- The pages of a run meet the condition. -/
def SafeStep (event : SyncEvent) (_next : SyncWorld) : Prop :=
  match event with
  | .page _ => world.SafePage
  | _ => True

structure Initial (world : SyncWorld) : Prop where
  syncMap : world.state.syncMap = createSyncMap
  when : world.state.when = none
  rows : ∀ name, ∀ ei ∈ world.source.rows name, ei.updatedAt ≤ world.clock
  user : world.source.user.updatedAt ≤ world.clock

def SeenBefore (ei : SyncEntity) : Prop :=
  ∀ name, ∀ date ∈ (world.state.syncMap name).maxUpdatedAt, date ≤ ei.updatedAt

/- A version was sent, is to be sent, or was written late. -/
def Kept (name : EntityName) (ei : SyncEntity) : Prop :=
  ei ∈ world.delivered name ∨ (isSince world.state.when ei.updatedAt = true ∧
      (ei ∈ world.ahead name ∨ world.SeenBefore ei))

/- Nothing is dated after the clock, and no version is lost. -/
structure Inv (localIds : LocalIds) (world : SyncWorld) : Prop where
  agrees : localIds.Agrees world.state.syncMap
  rows : ∀ name, ∀ ei ∈ world.source.rows name, ei.updatedAt ≤ world.clock
  user : world.source.user.updatedAt ≤ world.clock
  seen : ∀ name, ∀ date ∈ (world.state.syncMap name).maxUpdatedAt, date ≤ world.clock
  when : ∀ date ∈ world.state.when, date ≤ world.clock
  kept : ∀ name, ∀ ei ∈ world.source.rows name, world.Kept name ei

theorem Initial.inv {world : SyncWorld} (localIds : LocalIds) (hInit : world.Initial) :
  world.Inv localIds := by
  have hCount : ∀ name, (world.state.syncMap name).count = 0 := by
    intro name
    rw [hInit.syncMap]
    rfl
  constructor
  case agrees =>
    rw [hInit.syncMap]
    exact agrees_createSyncMap localIds
  case rows => exact hInit.rows
  case user => exact hInit.user
  case seen =>
    intro name date hDate
    rw [hInit.syncMap] at hDate
    cases hDate
  case when =>
    intro date hDate
    rw [hInit.when] at hDate
    cases hDate
  case kept =>
    intro name ei hEi
    right
    have hSince : isSince world.state.when ei.updatedAt = true := by
      rw [hInit.when]
      rfl
    refine ⟨hSince, .inl ?_⟩
    unfold ahead
    rw [remaining_of_count_zero hCount]
    exact mem_filter.mpr ⟨hEi, hSince⟩

end SyncWorld

-- Writes

namespace SyncWorld

variable
    {world : SyncWorld} {localIds : LocalIds}

end SyncWorld

-- Pages

namespace SyncWorld

variable {localIds : LocalIds} {world : SyncWorld} {chunk : SyncChunk}
variable {last : EntitySyncState.ProcessState} {result : EntitySyncState.ProcessResult}

variable
    {name : EntityName} {ei : SyncEntity}

section

variable (hPage : PageSpec world.source localIds world.state chunk last result)
include hPage

end

end SyncWorld

end TsStack.Wallet
