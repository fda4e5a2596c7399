import TsStack.Lib.EventRun
import TsStack.Wallet.LockInvariant

/-
  Which bodies the locks of `WalletStorageManager` keep
  apart.

  Every body that was not chained heads `readerLocks`, the
  queue all kinds take first.  A call that fails before it
  is pushed there still shifts the queue in its `finally`
  block, and takes away the lock of the call at its head.
  The discipline holds along a run exactly when no call
  fails there while another holds or awaits that lock.
-/

-- The discipline

namespace TsStack.Wallet

/- The kinds whose bodies may not overlap. -/
def RunKind.Conflicts : RunKind → RunKind → Prop
| .reader, other => other = .sync ∨ other = .storageProvider
| .writer, other => other ≠ .reader
| .sync, other => other ≠ .sync
| .storageProvider, other => other ≠ .storageProvider

def BodiesApart (manager : WalletStorageManager) : Prop :=
  ∀ (id other : Nat) (call otherCall : LockCall),
    id ≠ other → manager.calls[id]? = some call → manager.calls[other]? = some otherCall →
        call.phase = .body → otherCall.phase = .body → ¬ call.kind.Conflicts otherCall.kind

/- The call whose step an event is. -/
def LockEvent.actor : LockEvent → Option Nat
| .madeAvailable id => some id
| .notAvailable id => some id
| .granted id _ => some id
| .finish id => some id
| _ => none

/- A step takes away no lock of another call. -/
def KeepsOtherLocks
  (manager : WalletStorageManager) (event : LockEvent) (next : WalletStorageManager) : Prop :=
  ∀ lock id, id ∈ manager.queue lock → event.actor ≠ some id → id ∈ next.queue lock

structure LockDiscipline
  (manager : WalletStorageManager) (event : LockEvent) (next : WalletStorageManager) : Prop where
  apart : BodiesApart next
  keeps : KeepsOtherLocks manager event next

/- A call does not fail before it is pushed on `readerLocks`, unless that queue is empty. -/
def SafeEvent (manager : WalletStorageManager) : LockEvent → Prop
| .notAvailable id =>
  (manager.calls[id]?).map LockCall.phase = some (.makingAvailable 0) →
    manager.queue .readerLocks = []
| _ => True

namespace LockInvariant

variable {manager : WalletStorageManager} {id : Nat} {call : LockCall}

section

variable (hInv : LockInvariant manager) (hCall : manager.calls[id]? = some call)

include hInv hCall

/- A body that was not chained heads `readerLocks`. -/
theorem head_of_body (hParent : call.parent = none) (hBody : call.phase = .body) :
  (manager.queue .readerLocks).head? = some id := by
  have hPushed : 0 < call.pushed := by
    unfold LockCall.pushed
    rw [hBody]
    cases call.kind <;> decide
  apply hInv.head_of_pushed hCall hParent hPushed
  rw [hBody]
  simp

theorem head_or_sync (hBody : call.phase = .body) :
  (manager.queue .readerLocks).head? = some id ∨ call.kind = .sync ∧ ∃ root rootCall,
        manager.calls[root]? = some rootCall ∧ rootCall.kind = .sync ∧
          (manager.queue .readerLocks).head? = some root := by
  induction id using Nat.strongRecOn generalizing call with
  | ind id ih =>
    cases hParent : call.parent with
    | none => exact .inl (hInv.head_of_body hCall hParent hBody)
    | some parent =>
      right
      rcases hInv.chained id call parent hCall hParent with ⟨hLess, hKind, hPhase⟩
      rcases hPhase with hEnded | hPhase
      · rw [hBody] at hEnded
        cases hEnded
      · rcases hPhase with ⟨-, parentCall, hGet, hSync, hRuns⟩
        apply And.intro hKind
        rcases ih parent hLess hGet hRuns with hHead | hRoot
        · exact ⟨parent, parentCall, hGet, hSync, hHead⟩
        · exact hRoot.2

end

theorem bodiesApart (hInv : LockInvariant manager) : BodiesApart manager := by
  intro id other call otherCall hNe hCall hOther hBody hOtherBody hConflict
  have hSync : ¬ (call.kind = .sync ∧ otherCall.kind = .sync) := by
    rintro ⟨hKind, hOtherKind⟩
    rw [hKind, hOtherKind] at hConflict
    exact hConflict rfl
  rcases hInv.head_or_sync hCall hBody with hHead | ⟨hKind, root, rootCall, hRoot, hRootKind, hHead⟩
  · rcases hInv.head_or_sync hOther hOtherBody with hOtherHead |
        ⟨hOtherKind, root, rootCall, hRoot, hRootKind, hRootHead⟩
    · rw [hHead] at hOtherHead
      exact hNe (Option.some.inj hOtherHead)
    · rw [hHead] at hRootHead
      cases hRootHead
      rw [hCall] at hRoot
      cases hRoot
      exact hSync ⟨hRootKind, hOtherKind⟩
  · rcases hInv.head_or_sync hOther hOtherBody with hOtherHead | hOtherSync
    · rw [hHead] at hOtherHead
      cases hOtherHead
      rw [hOther] at hRoot
      cases hRoot
      exact hSync ⟨hKind, hRootKind⟩
    · exact hSync ⟨hKind, hOtherSync.1⟩

end LockInvariant

-- Steps

namespace WalletStorageManager

variable {manager : WalletStorageManager} {id : Nat}

theorem tellHead_queue : manager.tellHead.queue = manager.queue := by
  unfold tellHead
  split <;> rfl

theorem mem_pushLock (kind : RunKind) (level : Nat) {lock : LockQueue} {other : Nat}
  (hMem : other ∈ manager.queue lock) : other ∈ (manager.pushLock id kind level).queue lock := by
  rw [pushLock_queue]
  split
  · exact List.mem_append_left _ hMem
  · exact hMem

theorem mem_getActiveLock (kind : RunKind) (level : Nat) {lock : LockQueue} {other : Nat}
  (hMem : other ∈ manager.queue lock) :
  other ∈ (manager.getActiveLock id kind level).queue lock := by
  unfold getActiveLock
  split
  · exact mem_pushLock kind level hMem
  · exact hMem

end WalletStorageManager

namespace LockInvariant

open WalletStorageManager

variable {manager next : WalletStorageManager} {id : Nat} {call : LockCall} {event : LockEvent}

theorem release_queue (hInv : LockInvariant manager) (kind : RunKind) :
  (manager.release id kind).queue = (manager.dropLocks kind.locks).queue := by
  rw [release_eq kind (fun lock hNe => hInv.upper_tail hNe)]
  exact tellHead_queue

theorem setAvailable (hInv : LockInvariant manager) (isAvailable : Bool) :
  LockInvariant { manager with isAvailable := isAvailable } where
  nodup := hInv.nodup
  pushed := hInv.pushed
  queued := hInv.queued
  head := hInv.head
  upper := hInv.upper
  level := hInv.level
  chained := hInv.chained

variable {level : Nat}

section

variable (hInv : LockInvariant manager)

include hInv

theorem getActiveLock (hCall : manager.calls[id]? = some call)
  (hParent : call.parent = none) (hBody : call.phase ≠ .body)
  (hWaits : call.phase ≠ .waiting 0 false) (hPushed : call.pushed = level)
  (hLevel : level < call.kind.locks.length) :
  LockInvariant (manager.getActiveLock id call.kind level) := by
  cases hPushed
  unfold WalletStorageManager.getActiveLock
  split
  · apply hInv.pushLock hCall hParent hBody hLevel
    rcases Nat.eq_zero_or_pos call.pushed with hZero | hPos
    · exact .inl hZero
    · exact .inr (hInv.head_of_pushed hCall hParent hPos hWaits)
  · apply hInv.setPhase hCall
    · exact fun _ => Iff.rfl
    · exact hWaits
    · exact hLevel
    · exact .inr (Or.inr hParent)
    · exact fun hRuns => absurd hRuns hBody

theorem start (kind : RunKind) : LockInvariant (manager.start kind) := by
  have hLevel : 0 < kind.locks.length := by
    cases kind <;> decide
  have hAppend : LockInvariant
        { manager with
          calls := manager.calls ++
              [{ kind := kind
                 phase := .makingAvailable 0 }] } := by
    apply hInv.append
    · exact fun _ => rfl
    · exact hLevel
    · intro parent hParent
      cases hParent
  have hGet : (manager.calls ++
          [({ kind := kind
              phase := .makingAvailable 0 } : LockCall)])[
        manager.calls.length]? = some { kind := kind, phase := .makingAvailable 0 } :=
    List.getElem?_concat_length
  exact hAppend.getActiveLock hGet rfl (by simp) (by simp) rfl hLevel

theorem startChained {parent : Nat} (hStep : manager.startChained parent = some next) :
  LockInvariant next ∧ next.queue = manager.queue := by
  unfold WalletStorageManager.startChained at hStep
  cases hParent : manager.calls[parent]? with
  | none =>
    rw [hParent] at hStep
    cases hStep
  | some parentCall =>
    rw [hParent] at hStep
    dsimp only at hStep
    split at hStep
    · next hRuns =>
        cases hStep
        refine ⟨?_, rfl⟩
        apply hInv.append
        · intro hNone
          cases hNone
        · exact trivial
        · intro other hEq
          cases hEq
          have hLess : parent < manager.calls.length := by
            rw [List.getElem?_eq_some_iff] at hParent
            exact hParent.1
          exact ⟨hLess, rfl, .inr ⟨rfl, parentCall, hParent, hRuns⟩⟩
    · cases hStep

/- A call that releases owns `readerLocks`, or it is empty. -/
theorem release_keeps (kind : RunKind)
  (hOwn : ∀ head, (manager.queue .readerLocks).head? = some head → head = id)
  (hActor : event.actor = some id) : KeepsOtherLocks manager event (manager.release id kind) := by
  intro lock other hMem hNe
  rw [hActor] at hNe
  rw [hInv.release_queue]
  exact (hInv.dropLocks_mem _ hOwn (fun hEq => hNe (congrArg some hEq.symm))).mpr hMem

theorem resume {active : Bool} (hCall : manager.calls[id]? = some call)
  (hPhase : call.phase = .waiting level true) :
  LockInvariant (manager.resume id call.kind level active) ∧
    KeepsOtherLocks manager (.granted id active) (manager.resume id call.kind level active) := by
  have hBody : call.phase ≠ .body := by
    rw [hPhase]
    simp
  have hParent : call.parent = none := by
    apply hInv.parent_none hCall hBody
    rw [hPhase]
    simp
  have hWaits : call.phase ≠ .waiting 0 false := by
    rw [hPhase]
    simp
  have hPushed : call.pushed = level + 1 := by
    unfold LockCall.pushed
    rw [hPhase]
  have hLevel : level < call.kind.locks.length := by
    have hAt := hInv.level id call hCall
    unfold LockCall.AtLevel at hAt
    rw [hPhase] at hAt
    exact hAt
  have hHead := hInv.head_of_pushed hCall hParent (by rw [hPushed]; exact Nat.succ_pos level) hWaits
  have hOwn : ∀ head, (manager.queue .readerLocks).head? = some head → head = id := by
    intro head hOther
    rw [hHead] at hOther
    exact (Option.some.inj hOther).symm
  unfold WalletStorageManager.resume
  split
  · next hNext =>
      constructor
      · exact hInv.getActiveLock hCall hParent hBody hWaits hPushed hNext
      · exact fun lock other hMem _ => mem_getActiveLock call.kind (level + 1) hMem
  · next hLast =>
      split
      · constructor
        · apply hInv.setPhase hCall
          · intro lock
            unfold LockCall.PushedOn
            rw [hPushed]
            have hAll : ({ call with phase := .body } : LockCall).pushed = level + 1 := by
              show call.kind.locks.length = level + 1
              omega
            rw [hAll]
          · exact hWaits
          · exact trivial
          · exact .inr (Or.inr hParent)
          · exact fun hRuns => absurd hRuns hBody
        · exact fun lock other hMem _ => hMem
      · constructor
        · exact hInv.release hCall hOwn (fun hRuns => absurd hRuns hBody)
        · exact hInv.release_keeps call.kind hOwn rfl

theorem finish (hStep : manager.finish id = some next) :
  LockInvariant next ∧ KeepsOtherLocks manager (.finish id) next := by
  unfold WalletStorageManager.finish at hStep
  cases hCall : manager.calls[id]? with
  | none =>
    rw [hCall] at hStep
    cases hStep
  | some call =>
    rw [hCall] at hStep
    dsimp only at hStep
    split at hStep
    case isFalse => cases hStep
    case isTrue hRuns =>
    have hChildren :
        ∀ (child : Nat) (childCall : LockCall), manager.calls[child]? = some childCall →
            childCall.parent = some id → childCall.phase ≠ .body := by
      intro child childCall hChild hParent hBody
      have hAwaits := hRuns.2
      unfold awaitsChained at hAwaits
      rw [List.any_eq_false] at hAwaits
      apply hAwaits childCall (List.mem_of_getElem? hChild)
      simp [hParent, hBody]
    cases hParent : call.parent with
    | none =>
      rw [hParent] at hStep
      cases hStep
      have hHead := hInv.head_of_body hCall hParent hRuns.1
      have hOwn : ∀ head, (manager.queue .readerLocks).head? = some head → head = id := by
        intro head hOther
        rw [hHead] at hOther
        exact (Option.some.inj hOther).symm
      exact ⟨hInv.release hCall hOwn (fun _ => hChildren), hInv.release_keeps call.kind hOwn rfl⟩
    | some parent =>
      rw [hParent] at hStep
      cases hStep
      constructor
      · apply hInv.setPhase hCall
        · intro lock
          unfold LockCall.PushedOn
          simp [hParent]
        · rw [hRuns.1]
          simp
        · exact trivial
        · exact .inr (Or.inl rfl)
        · exact fun _ => hChildren
      · exact fun lock other hMem _ => hMem

end

-- Runs

theorem initial (isAvailable : Bool) : LockInvariant { isAvailable := isAvailable } := by
  constructor <;> simp

section

variable (hInv : LockInvariant manager)

include hInv

/- What is so of a call that awaits `makeAvailable`. -/
theorem of_makingAvailable (hCall : manager.calls[id]? = some call)
  (hPhase : call.phase = .makingAvailable level) :
  call.parent = none ∧ call.pushed = level ∧ level < call.kind.locks.length ∧
    (level = 0 ∨ (manager.queue .readerLocks).head? = some id) := by
  have hParent : call.parent = none := by
    apply hInv.parent_none hCall
    · rw [hPhase]
      simp
    · rw [hPhase]
      simp
  have hPushed : call.pushed = level := by
    unfold LockCall.pushed
    rw [hPhase]
  have hLevel := hInv.level id call hCall
  unfold LockCall.AtLevel at hLevel
  rw [hPhase] at hLevel
  refine ⟨hParent, hPushed, hLevel, ?_⟩
  rcases Nat.eq_zero_or_pos level with hZero | hPos
  · exact .inl hZero
  · right
    apply hInv.head_of_pushed hCall hParent
    · rw [hPushed]
      exact hPos
    · rw [hPhase]
      simp

theorem madeAvailable (hStep : manager.step (.madeAvailable id) = some next) :
  LockInvariant next ∧ KeepsOtherLocks manager (.madeAvailable id) next := by
  unfold WalletStorageManager.step at hStep
  dsimp only at hStep
  split at hStep
  case h_2 => cases hStep
  case h_1 kind parent level hCall =>
  cases hStep
  rcases hInv.of_makingAvailable hCall rfl with ⟨hParent, hPushed, hLevel, hHead⟩
  have hPush := (hInv.setAvailable true).pushLock hCall hParent (by simp) hLevel hHead
  constructor
  · exact hPush
  · exact fun lock other hMem _ => mem_pushLock kind level hMem

/- A failed call releases what it holds, if it is safe. -/
theorem notAvailable (hSafe : SafeEvent manager (.notAvailable id))
  (hStep : manager.step (.notAvailable id) = some next) :
  LockInvariant next ∧ KeepsOtherLocks manager (.notAvailable id) next := by
  unfold WalletStorageManager.step at hStep
  dsimp only at hStep
  split at hStep
  case h_2 => cases hStep
  case h_1 kind parent level hCall =>
  cases hStep
  rcases hInv.of_makingAvailable hCall rfl with ⟨-, -, -, hHead⟩
  have hOwn : ∀ head, (manager.queue .readerLocks).head? = some head → head = id := by
    intro head hIs
    rcases hHead with hZero | hHead
    · cases hZero
      unfold SafeEvent at hSafe
      dsimp only at hSafe
      rw [hCall] at hSafe
      rw [hSafe rfl] at hIs
      cases hIs
    · rw [hHead] at hIs
      exact (Option.some.inj hIs).symm
  exact ⟨hInv.release hCall hOwn (by simp), hInv.release_keeps kind hOwn rfl⟩

theorem step_keeps (hSafe : SafeEvent manager event) (hStep : manager.step event = some next) :
  LockInvariant next ∧ KeepsOtherLocks manager event next := by
  cases event with
  | start kind =>
    cases hStep
    exact ⟨hInv.start kind, fun lock other hMem _ => mem_getActiveLock kind 0 hMem⟩
  | startChained parent =>
    rcases hInv.startChained hStep with ⟨hNext, hQueue⟩
    apply And.intro hNext
    intro lock other hMem _
    rw [hQueue]
    exact hMem
  | madeAvailable id => exact hInv.madeAvailable hStep
  | notAvailable id => exact hInv.notAvailable hSafe hStep
  | granted id active =>
    unfold WalletStorageManager.step at hStep
    dsimp only at hStep
    split at hStep
    case h_2 => cases hStep
    case h_1 kind parent level hCall =>
    cases hStep
    exact hInv.resume hCall rfl
  | finish id => exact hInv.finish hStep
  | setAvailable isAvailable =>
    cases hStep
    exact ⟨hInv.setAvailable isAvailable, fun lock other hMem _ => hMem⟩

/-
  A call that fails before it is pushed on `readerLocks`
  takes the place of the call at the head of that queue.
-/
theorem safe_of_keeps (hKeeps : KeepsOtherLocks manager event next)
  (hStep : manager.step event = some next) : SafeEvent manager event := by
  cases event with
  | notAvailable id =>
    unfold WalletStorageManager.step at hStep
    dsimp only at hStep
    split at hStep
    case h_2 => cases hStep
    case h_1 kind parent level hCall =>
    cases hStep
    unfold SafeEvent
    dsimp only
    rw [hCall]
    intro hPhase
    have hZero : level = 0 := by
      cases hPhase
      rfl
    cases hZero
    cases hQueue : manager.queue .readerLocks with
    | nil => rfl
    | cons head rest =>
      have hMem : head ∈ manager.queue .readerLocks := by
        rw [hQueue]
        exact List.mem_cons_self
      have hNe : head ≠ id := by
        intro hEq
        cases hEq
        have hFresh := hInv.not_mem_level hCall (hInv.level id _ hCall)
        exact hFresh ((levelQueue_zero kind).symm ▸ hMem)
      have hKept := hKeeps .readerLocks head hMem (fun hEq => hNe (Option.some.inj hEq).symm)
      rw [hInv.release_queue] at hKept
      unfold dropLocks at hKept
      dsimp only at hKept
      rw [if_pos (readerLocks_mem kind), hQueue] at hKept
      have hNodup := hInv.nodup .readerLocks
      rw [hQueue] at hNodup
      exact absurd hKept (List.nodup_cons.mp hNodup).1
  | start kind => exact trivial
  | startChained parent => exact trivial
  | madeAvailable id => exact trivial
  | granted id active => exact trivial
  | finish id => exact trivial
  | setAvailable isAvailable => exact trivial

end

end LockInvariant

theorem lockDiscipline_iff_safe (isAvailable : Bool) (events : List LockEvent) :
  EventRun.Along WalletStorageManager.step LockDiscipline { isAvailable := isAvailable } events ↔
    EventRun.Along WalletStorageManager.step (fun manager event _ => SafeEvent manager event)
      { isAvailable := isAvailable } events := by
  apply @EventRun.along_iff _ _ _ _ _ LockInvariant
  · intro manager event next hInv hStep
    constructor
    · intro hDiscipline
      exact hInv.safe_of_keeps hDiscipline.keeps hStep
    · intro hSafe
      rcases hInv.step_keeps hSafe hStep with ⟨hNext, hKeeps⟩
      exact ⟨hNext.bodiesApart, hKeeps⟩
  · intro manager event next hInv hStep hSafe
    exact (hInv.step_keeps hSafe hStep).1
  · exact LockInvariant.initial isAvailable

/-
  A writer fails to make the storage available while another
  runs its body, and lets a third one in.
-/
theorem not_lockDiscipline :
  ¬ EventRun.Along WalletStorageManager.step LockDiscipline
      {} [.start .writer, .madeAvailable 0, .granted 0 true, .granted 0 true, .setAvailable false,
        .start .writer, .notAvailable 1, .setAvailable true, .start .writer,
        .granted 2 true, .granted 2 true] := by
  intro hAlong
  have hLast := hAlong.2.2.2.2.2.2.2.2.2.2.1.apart
  exact hLast 0 2 ⟨.writer, none, .body⟩ ⟨.writer, none, .body⟩ (by decide) rfl rfl rfl rfl
    (by simp [RunKind.Conflicts])

end TsStack.Wallet
