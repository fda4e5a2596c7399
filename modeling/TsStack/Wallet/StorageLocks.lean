import Mathlib.Data.List.Nodup
import Mathlib.Logic.Relation

/-
  The lock queues of `WalletStorageManager`.

  A queue holds the calls whose resolvers it holds.  What a
  call does between two awaits is one step: the release of
  its locks in a `finally` block is part of the step that
  ends the call.  A chained sync is given the active storage
  by the sync whose body awaits it.
-/

-- Calls

namespace TsStack.Wallet

inductive LockQueue
| readerLocks
| writerLocks
| syncLocks
| spLocks
deriving DecidableEq, Repr

/- `runAsReader`, `runAsWriter`, and so on. -/
inductive RunKind
| reader
| writer
| sync
| storageProvider
deriving DecidableEq, Repr

/- The queues a call takes its locks from, in order. -/
def RunKind.locks : RunKind → List LockQueue
| .reader => [.readerLocks]
| .writer => [.readerLocks, .writerLocks]
| .sync => [.readerLocks, .writerLocks, .syncLocks]
| .storageProvider => [.readerLocks, .writerLocks, .syncLocks, .spLocks]

/-
  Where a call is: it awaits `makeAvailable` before it takes
  the lock at a level, or the lock, or it runs its body.
-/
inductive CallPhase
| makingAvailable (level : Nat)
| waiting (level : Nat) (resolved : Bool)
| body
| ended
deriving DecidableEq, Repr

structure LockCall where
  kind : RunKind
  parent : Option Nat := none
  phase : CallPhase
deriving DecidableEq, Repr

/- The calls are named by their places in `calls`. -/
structure WalletStorageManager where
  isAvailable : Bool := false
  queue : LockQueue → List Nat := fun _ => []
  calls : List LockCall := []

-- Locks

namespace WalletStorageManager

variable (manager : WalletStorageManager)

def setPhase (id : Nat) (phase : CallPhase) : WalletStorageManager :=
  { manager with
    calls := manager.calls.modify id fun call => { call with phase := phase } }

def setQueue (lock : LockQueue) (ids : List Nat) : WalletStorageManager :=
  { manager with
    queue := fun other => if other = lock then ids else manager.queue other }

def levelQueue (kind : RunKind) (level : Nat) : LockQueue :=
  kind.locks.getD level .readerLocks

def pushLock (id : Nat) (kind : RunKind)
  (level : Nat) : WalletStorageManager :=
  let lock := levelQueue kind level
  let ids := manager.queue lock ++ [id]
  (manager.setQueue lock ids).setPhase id (.waiting level (ids.length = 1))

/- `getActiveLock`, up to its first await. -/
def getActiveLock (id : Nat) (kind : RunKind)
  (level : Nat) : WalletStorageManager :=
  if manager.isAvailable then manager.pushLock id kind level
  else manager.setPhase id (.makingAvailable level)

def resolveCall (lock : LockQueue) (call : LockCall) : LockCall :=
  match call.phase with
  | .waiting level _ =>
    if levelQueue call.kind level = lock then { call with phase := .waiting level true }
    else call
  | _ => call

def releaseActiveLock (lock : LockQueue) : WalletStorageManager :=
  let ids := (manager.queue lock).tail
  let manager := manager.setQueue lock ids
  match ids with
  | [] => manager
  | head :: _ =>
    { manager with
      calls := manager.calls.modify head (resolveCall lock) }

/- The `finally` block of a call. -/
def release (id : Nat) (kind : RunKind) : WalletStorageManager :=
  (kind.locks.reverse.foldl releaseActiveLock manager).setPhase id .ended

end WalletStorageManager

-- Steps

/- What happens next. -/
inductive LockEvent
| start (kind : RunKind)
| startChained (parent : Nat)
| madeAvailable (id : Nat)
| notAvailable (id : Nat)
| granted (id : Nat) (active : Bool)
| finish (id : Nat)
| setAvailable (isAvailable : Bool)
deriving DecidableEq, Repr

namespace WalletStorageManager

variable (manager : WalletStorageManager)

def start (kind : RunKind) : WalletStorageManager :=
  getActiveLock
    { manager with
      calls := manager.calls ++ [{ kind := kind, phase := .makingAvailable 0 }] }
    manager.calls.length kind 0

def startChained (parent : Nat) : Option WalletStorageManager :=
  match manager.calls[parent]? with
  | none => none
  | some call =>
    if call.kind = .sync ∧ call.phase = .body then
      some
        { manager with
          calls := manager.calls ++
              [{ kind := .sync
                 parent := some parent
                 phase := .body }] }
    else none

def resume (id : Nat) (kind : RunKind) (level : Nat)
  (active : Bool) : WalletStorageManager :=
  if level + 1 < kind.locks.length then manager.getActiveLock id kind (level + 1)
  else if active then manager.setPhase id .body
  else manager.release id kind

def awaitsChained (id : Nat) : Bool :=
  manager.calls.any fun call => call.parent = some id ∧ call.phase = .body

def finish (id : Nat) : Option WalletStorageManager :=
  match manager.calls[id]? with
  | none => none
  | some call =>
    if call.phase = .body ∧ manager.awaitsChained id = false then
      match call.parent with
      | none => some (manager.release id call.kind)
      | some _ => some (manager.setPhase id .ended)
    else none

def step :
  LockEvent → Option WalletStorageManager
| .start kind => some (manager.start kind)
| .startChained parent => manager.startChained parent
| .madeAvailable id =>
  match manager.calls[id]? with
  | some ⟨kind, _, .makingAvailable level⟩ =>
    some ({ manager with isAvailable := true }.pushLock id kind level)
  | _ => none
| .notAvailable id =>
  match manager.calls[id]? with
  | some ⟨kind, _, .makingAvailable _⟩ => some (manager.release id kind)
  | _ => none
| .granted id active =>
  match manager.calls[id]? with
  | some ⟨kind, _, .waiting level true⟩ => some (manager.resume id kind level active)
  | _ => none
| .finish id => manager.finish id
| .setAvailable isAvailable => some { manager with isAvailable := isAvailable }

end WalletStorageManager

end TsStack.Wallet
