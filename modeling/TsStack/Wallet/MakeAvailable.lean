import Mathlib.Data.List.Perm.Basic
import TsStack.Lib.EventRun

/-
  `WalletStorageManager.makeAvailable` and its overlapping calls.

  Every call selects the active store among all stores, and
  all calls do so in the same fields of the manager.
-/

-- The manager

open List Option

namespace TsStack.Wallet.MakeAvailable

structure TableSettings where
  storageIdentityKey : String
deriving DecidableEq

structure TableUser where
  userId : Nat
  activeStorage : String
deriving DecidableEq

structure ManagedStorage where
  isAvailable : Bool
  settings : Option TableSettings
  user : Option TableUser
deriving DecidableEq

/- What a call awaits: the store's two replies, or `ensureStoreAvailable`. -/
inductive Await
| settings
| user
| ensured
deriving DecidableEq

/- A call in progress: the store it is at, and its own `backups`. -/
structure Call where
  await : Await
  position : Nat
  backups : List Nat
deriving DecidableEq

inductive Outcome
| returned (settings : Option TableSettings)
| thrown
deriving DecidableEq

/-
  The manager, with the calls in progress and the outcomes
  of the others.  A store is its position in `_stores`.
-/
structure WalletStorageManager where
  stores : List ManagedStorage
  isAvailable : Bool
  active : Option Nat
  backups : List Nat
  conflictingActives : List Nat
  userId : Option Nat
  isActive : Option Bool
  inProgress : List Call
  outcomes : List Outcome
deriving DecidableEq

variable (manager : WalletStorageManager)

def settings (store : Nat) : Option TableSettings := manager.stores[store]?.bind (·.settings)

def user (store : Nat) : Option TableUser := manager.stores[store]?.bind (·.user)

def storageIdentityKey (store : Nat) : Option String :=
  (settings manager store).map (·.storageIdentityKey)

def activeStorage (store : Nat) : Option String := (user manager store).map (·.activeStorage)

def isActiveEnabled : Bool :=
  match manager.active with
  | none => false
  | some active =>
    storageIdentityKey manager active = activeStorage manager active ∧
      manager.conflictingActives = []

def ensureStoreAvailable (position : Nat) : Await :=
  match manager.stores[position]? with
  | some ⟨true, some _, some _⟩ => .ensured
  | _ => .settings

/- The selection, and the call's `backups` after it. -/
def selectActiveFromStore (store : Nat) (backups : List Nat) : WalletStorageManager × List Nat :=
  match manager.active with
  | none => ({ manager with active := some store }, backups)
  | some active =>
    if activeStorage manager store = storageIdentityKey manager store ∧
        isActiveEnabled manager = false then
      ({ manager with active := some store }, backups ++ [active])
    else
      (manager, backups ++ [store])

def endCall (call : Call) (outcome : Outcome) : WalletStorageManager :=
  { manager with
    inProgress := manager.inProgress.erase call, outcomes := manager.outcomes ++ [outcome] }

def awaitNext (call next : Call) : WalletStorageManager :=
  { manager with inProgress := manager.inProgress.erase call ++ [next] }

/- The second pass, and the return. -/
def finish (call : Call) (backups : List Nat) : WalletStorageManager :=
  let si := manager.active.bind (storageIdentityKey manager)
  let manager := { manager with
    conflictingActives := manager.conflictingActives ++
      backups.filter fun store => activeStorage manager store ≠ si
    backups := manager.backups ++ backups.filter fun store => !(activeStorage manager store ≠ si)
    isAvailable := true
    userId := (manager.active.bind (user manager)).map TableUser.userId }
  endCall { manager with isActive := some (isActiveEnabled manager) } call
    (.returned (manager.active.bind (settings manager)))

/- `makeAvailable` up to its first `await`. -/
def makeAvailable : WalletStorageManager :=
  if manager.isAvailable then
    { manager with
      outcomes := manager.outcomes ++ [.returned (manager.active.bind (settings manager))] }
  else
    let reset := { manager with active := none, backups := [], conflictingActives := [] }
    if manager.stores = [] then
      { reset with outcomes := reset.outcomes ++ [.thrown] }
    else
      { reset with inProgress := reset.inProgress ++ [⟨ensureStoreAvailable reset 0, 0, []⟩] }

-- Its calls

/- A call, and what one awaits; a store may throw, and answers anything. -/
inductive Event
| makeAvailable
| settings (call : Call) (reply : Option TableSettings)
| user (call : Call) (reply : Option TableUser)
| ensured (call : Call)

def settingsReply (call : Call) : Option TableSettings → WalletStorageManager
| none => endCall manager call .thrown
| some reply =>
  awaitNext
    { manager with
      stores := manager.stores.modify call.position ({ · with settings := some reply }) }
    call { call with await := .user }

def userReply (call : Call) : Option TableUser → WalletStorageManager
| none => endCall manager call .thrown
| some reply =>
  awaitNext
    { manager with
      stores := manager.stores.modify call.position
        ({ · with user := some reply, isAvailable := true }) }
    call { call with await := .ensured }

/- The rest of the loop's body, up to the next store's `await`. -/
def ensured (call : Call) : WalletStorageManager :=
  let (manager, backups) := selectActiveFromStore manager call.position call.backups
  let position := call.position + 1
  if position < manager.stores.length then
    awaitNext manager call ⟨ensureStoreAvailable manager position, position, backups⟩
  else
    finish manager call backups

def step : Event → Option WalletStorageManager
| .makeAvailable => some (makeAvailable manager)
| .settings call reply =>
  if call ∈ manager.inProgress ∧ call.await = .settings then
    some (settingsReply manager call reply)
  else none
| .user call reply =>
  if call ∈ manager.inProgress ∧ call.await = .user then some (userReply manager call reply)
  else none
| .ensured call =>
  if call ∈ manager.inProgress ∧ call.await = .ensured then some (ensured manager call) else none

def Partitioned : Prop :=
  ∃ active, manager.active = some active ∧
    (active :: (manager.backups ++ manager.conflictingActives)).Nodup ∧
    ∀ store, store ∈ active :: (manager.backups ++ manager.conflictingActives) ↔
      store < manager.stores.length

/- No call gets past the check of `_isAvailable` while another is in progress. -/
def alone : Event → Bool
| .makeAvailable => manager.isAvailable || manager.inProgress = []
| _ => true

-- What the calls that are alone keep

structure Selecting (call : Call) : Prop where
  inProgress : manager.inProgress = [call]
  position : call.position < manager.stores.length
  selected : (manager.active.toList ++ call.backups).Perm (List.range call.position)
  backups : manager.backups = []
  conflictingActives : manager.conflictingActives = []

structure SelectionHolds : Prop where
  returned : ∀ settings, .returned settings ∈ manager.outcomes → manager.isAvailable
  partitioned : manager.isAvailable → manager.inProgress = [] ∧ Partitioned manager
  selecting : manager.inProgress = [] ∨ ∃ call, Selecting manager call

variable {manager} {next : WalletStorageManager} {call : Call} {backups : List Nat}

/- Whatever the stores' settings are. -/
theorem selectActiveFromStore_perm (store : Nat) :
  ((selectActiveFromStore manager store backups).1.active.toList ++
    (selectActiveFromStore manager store backups).2).Perm
      (store :: (manager.active.toList ++ backups)) := by
  unfold selectActiveFromStore
  split
  · rename_i hAct
    rw [hAct]
    exact List.Perm.refl _
  · rename_i active hAct
    split
    · rw [hAct]
      exact (perm_append_singleton active backups).cons store
    · rw [hAct]
      exact ((perm_append_singleton store backups).cons active).trans (List.Perm.swap ..)

/- The selection changes no field but `_active`, which it leaves set. -/
theorem selectActiveFromStore_eq (store : Nat) :
  ∃ active, (selectActiveFromStore manager store backups).1 =
    { manager with active := some active } := by
  unfold selectActiveFromStore
  split
  · exact ⟨_, rfl⟩
  · rename_i active hAct
    split
    · exact ⟨_, rfl⟩
    · exact ⟨active, by rw [← hAct]⟩

theorem finish_partitioned {active : Nat} (hAct : manager.active = some active)
  (hSel : (active :: backups).Perm (range manager.stores.length))
  (hBackups : manager.backups = []) (hConflicting : manager.conflictingActives = []) :
  Partitioned (finish manager call backups) := by
  have hPerm : (active :: ((finish manager call backups).backups ++
      (finish manager call backups).conflictingActives)).Perm
        (range manager.stores.length) := by
    refine List.Perm.trans (List.Perm.cons active ?_) hSel
    simp only [finish, endCall, hBackups, hConflicting, nil_append]
    exact perm_append_comm.trans (filter_append_perm _ backups)
  refine ⟨active, hAct, hPerm.nodup_iff.mpr nodup_range, fun store => ?_⟩
  rw [hPerm.mem_iff, mem_range]
  rfl

theorem awaitNext_inProgress {after : Call} (hCall : manager.inProgress = [call]) :
  (awaitNext manager call after).inProgress = [after] := by
  simp [awaitNext, hCall]

theorem endCall_inProgress {outcome : Outcome} (hCall : manager.inProgress = [call]) :
  (endCall manager call outcome).inProgress = [] := by
  simp [endCall, hCall]

section

variable (hHold : SelectionHolds manager)
include hHold

theorem SelectionHolds.not_isAvailable (hSel : Selecting manager call) : ¬ manager.isAvailable := by
  intro hAvail
  have hNone := (hHold.partitioned hAvail).1
  rw [hSel.inProgress] at hNone
  cases hNone

theorem SelectionHolds.selecting_of_mem
  (hCall : call ∈ manager.inProgress) : Selecting manager call := by
  rcases hHold.selecting with hNone | ⟨only, hSel⟩
  · rw [hNone] at hCall
    cases hCall
  · rw [hSel.inProgress] at hCall
    rw [mem_singleton.mp hCall]
    exact hSel

section

variable (hNot : ¬ manager.isAvailable) (hAvail : next.isAvailable = manager.isAvailable)

include hNot hAvail

theorem SelectionHolds.of_selecting
  (hOutcomes : next.outcomes = manager.outcomes) (hSel : ∃ call, Selecting next call) :
  SelectionHolds next := by
  refine ⟨?_, fun hIs => absurd (hAvail ▸ hIs) hNot, .inr hSel⟩
  rw [hOutcomes, hAvail]
  exact hHold.returned

/- A call without stores, or with one that throws, changes nothing else. -/
theorem SelectionHolds.of_thrown
  (hOutcomes : next.outcomes = manager.outcomes ++ [.thrown]) (hNone : next.inProgress = []) :
  SelectionHolds next := by
  refine ⟨fun settings hReturned => ?_, fun hIs => absurd (hAvail ▸ hIs) hNot, .inl hNone⟩
  rw [hOutcomes] at hReturned
  rcases mem_append.mp hReturned with hOld | hNew
  · exact hAvail ▸ hHold.returned settings hOld
  · cases mem_singleton.mp hNew

end

end

section

variable (hHold : SelectionHolds manager)

include hHold

theorem SelectionHolds.thrown
  (hSel : Selecting manager call) : SelectionHolds (endCall manager call .thrown) :=
  hHold.of_thrown (hHold.not_isAvailable hSel) rfl rfl
    (endCall_inProgress hSel.inProgress)

theorem SelectionHolds.awaitNext {stores : List ManagedStorage} {await : Await} (hSel : Selecting manager call)
  (hLen : stores.length = manager.stores.length) : SelectionHolds
    (awaitNext { manager with stores := stores } call { call with await := await }) :=
  hHold.of_selecting (hHold.not_isAvailable hSel) rfl rfl
    ⟨_, awaitNext_inProgress hSel.inProgress, hLen ▸ hSel.position,
      hSel.selected, hSel.backups, hSel.conflictingActives⟩

theorem SelectionHolds.makeAvailable
  (hAlone : alone manager .makeAvailable) : SelectionHolds (makeAvailable manager) := by
  unfold MakeAvailable.makeAvailable
  split
  · rename_i hAvail
    exact ⟨fun _ _ => hAvail, hHold.partitioned, .inl (hHold.partitioned hAvail).1⟩
  · rename_i hNot
    have hNone : manager.inProgress = [] := by simpa [alone, hNot] using hAlone
    split
    · exact hHold.of_thrown hNot rfl rfl hNone
    · rename_i hStores
      exact hHold.of_selecting hNot rfl rfl ⟨_, congrArg (· ++ _) hNone,
        length_pos_iff.mpr hStores, List.Perm.refl _, rfl, rfl⟩

theorem SelectionHolds.ensured
  (hSelecting : Selecting manager call) : SelectionHolds (ensured manager call) := by
  rcases selectActiveFromStore_eq call.position with ⟨active, hSel⟩
  rcases hPair : selectActiveFromStore manager call.position call.backups with ⟨selected, backups⟩
  have hPerm := hPair ▸ @selectActiveFromStore_perm manager call.backups call.position
  rw [hPair] at hSel
  cases hSel
  have hRange : (active :: backups).Perm (range (call.position + 1)) := by
    rw [range_succ]
    exact (hPerm.trans (hSelecting.selected.cons _)).trans (perm_append_singleton _ _).symm
  unfold MakeAvailable.ensured
  simp only [hPair]
  split
  · rename_i hNext
    exact hHold.of_selecting (hHold.not_isAvailable hSelecting) rfl rfl
      ⟨_, awaitNext_inProgress hSelecting.inProgress, hNext, hRange, hSelecting.backups,
        hSelecting.conflictingActives⟩
  · rename_i hLast
    have hLen : call.position + 1 = manager.stores.length :=
      Nat.le_antisymm hSelecting.position (Nat.le_of_not_lt hLast)
    have hNone : (endCall manager call .thrown).inProgress = [] :=
      endCall_inProgress hSelecting.inProgress
    refine ⟨fun _ _ => rfl, fun _ => ⟨hNone, ?_⟩, .inl hNone⟩
    exact finish_partitioned rfl (hLen ▸ hRange) hSelecting.backups hSelecting.conflictingActives

theorem SelectionHolds.step {event : Event}
  (hStep : step manager event = some next) (hAlone : alone manager event) :
  SelectionHolds next := by
  cases event with
  | makeAvailable =>
    cases hStep
    exact hHold.makeAvailable hAlone
  | settings call reply =>
    rcases ite_none_right_eq_some.mp hStep with ⟨⟨hCall, -⟩, ⟨⟩⟩
    have hSel := hHold.selecting_of_mem hCall
    cases reply with
    | none => exact hHold.thrown hSel
    | some reply => exact hHold.awaitNext hSel (length_modify ..)
  | user call reply =>
    rcases ite_none_right_eq_some.mp hStep with ⟨⟨hCall, -⟩, ⟨⟩⟩
    have hSel := hHold.selecting_of_mem hCall
    cases reply with
    | none => exact hHold.thrown hSel
    | some reply => exact hHold.awaitNext hSel (length_modify ..)
  | ensured call =>
    rcases ite_none_right_eq_some.mp hStep with ⟨⟨hCall, -⟩, ⟨⟩⟩
    exact hHold.ensured (hHold.selecting_of_mem hCall)

end

end TsStack.Wallet.MakeAvailable
