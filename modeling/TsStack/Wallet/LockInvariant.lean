import Mathlib.Data.List.GetD
import TsStack.Wallet.StorageLocks

/-
  What the queues of `WalletStorageManager` hold.

  All kinds take `readerLocks` first, so only the call at
  its head gets past it, and the other queues hold that call
  or nobody.
-/

-- The invariant

open List

namespace TsStack.Wallet

def LockCall.pushed (call : LockCall) : Nat :=
  match call.phase with
  | .makingAvailable level => level
  | .waiting level _ => level + 1
  | .body => call.kind.locks.length
  | .ended => 0

def LockCall.AtLevel (call : LockCall) : Prop :=
  match call.phase with
  | .makingAvailable level => level < call.kind.locks.length
  | .waiting level _ => level < call.kind.locks.length
  | _ => True

def LockCall.PushedOn (call : LockCall) (lock : LockQueue) : Prop :=
  call.parent = none ∧ ∃ level < call.pushed, WalletStorageManager.levelQueue call.kind level = lock

def ChainedTo (manager : WalletStorageManager) (id : Nat) (call : LockCall) (parent : Nat) : Prop :=
  parent < id ∧ call.kind = .sync ∧ (call.phase = .ended ∨ call.phase = .body ∧
        ∃ parentCall, manager.calls[parent]? = some parentCall ∧
          parentCall.kind = .sync ∧ parentCall.phase = .body)

/-
  A queue holds the calls that were pushed on it.  All but
  the head of `readerLocks` have got no further than that.
-/
structure LockInvariant (manager : WalletStorageManager) : Prop where
  nodup : ∀ lock, (manager.queue lock).Nodup
  pushed :
    ∀ lock, ∀ id ∈ manager.queue lock, ∃ call, manager.calls[id]? = some call ∧ call.PushedOn lock
  queued : ∀ (id : Nat) (call : LockCall), manager.calls[id]? = some call →
      call.PushedOn .readerLocks → id ∈ manager.queue .readerLocks
  head : ∀ (id : Nat) (call : LockCall), manager.calls[id]? = some call →
      id ∈ manager.queue .readerLocks → (manager.queue .readerLocks).head? = some id ∨
          call.phase = .waiting 0 false
  upper : ∀ lock, lock ≠ .readerLocks → ∀ id ∈ manager.queue lock,
        (manager.queue .readerLocks).head? = some id
  level : ∀ (id : Nat) (call : LockCall), manager.calls[id]? = some call → call.AtLevel
  chained : ∀ (id : Nat) (call : LockCall) (parent : Nat), manager.calls[id]? = some call →
      call.parent = some parent → ChainedTo manager id call parent

-- Levels

namespace WalletStorageManager

theorem levelQueue_zero (kind : RunKind) : levelQueue kind 0 = .readerLocks := by
  cases kind <;> rfl

variable
    {kind : RunKind} {level : Nat}

section

variable (hLevel : level < kind.locks.length)

include hLevel

theorem levelQueue_eq : levelQueue kind level = kind.locks[level] :=
  getD_eq_getElem _ _ hLevel

theorem levelQueue_mem : levelQueue kind level ∈ kind.locks := by
  rw [levelQueue_eq hLevel]
  exact getElem_mem hLevel

theorem levelQueue_inj {other : Nat} (hOther : other < kind.locks.length)
  (hEq : levelQueue kind level = levelQueue kind other) : level = other := by
  rw [levelQueue_eq hLevel, levelQueue_eq hOther] at hEq
  have hNodup : kind.locks.Nodup := by
    cases kind <;> decide
  exact (List.Nodup.getElem_inj_iff hNodup).mp hEq

end

theorem readerLocks_mem (kind : RunKind) : .readerLocks ∈ kind.locks := by
  cases kind <;> decide

end WalletStorageManager

namespace LockCall

open WalletStorageManager

variable {call : LockCall}

theorem pushed_le (hLevel : call.AtLevel) : call.pushed ≤ call.kind.locks.length := by
  unfold AtLevel at hLevel
  unfold pushed
  cases hPhase : call.phase <;> simp only [hPhase] at hLevel ⊢ <;>
    omega

theorem pushedOn_readerLocks (hParent : call.parent = none) (hPushed : 0 < call.pushed) :
  call.PushedOn .readerLocks :=
  ⟨hParent, 0, hPushed, levelQueue_zero call.kind⟩

variable {lock : LockQueue}

theorem PushedOn.mem_locks (hPushed : call.PushedOn lock) (hLevel : call.AtLevel) :
  lock ∈ call.kind.locks := by
  rcases hPushed with ⟨-, level, hLess, rfl⟩
  exact levelQueue_mem (Nat.lt_of_lt_of_le hLess (pushed_le hLevel))

end LockCall

-- What the parts of a step keep

namespace WalletStorageManager

variable {manager : WalletStorageManager} {id other : Nat} {call : LockCall}

theorem setPhase_get (phase : CallPhase) (hCall : manager.calls[id]? = some call) :
  (manager.setPhase id phase).calls[id]? = some { call with phase := phase } := by
  simp only [setPhase, getElem?_modify_eq, hCall]
  rfl

theorem setPhase_get_ne (phase : CallPhase) (hNe : other ≠ id) :
  (manager.setPhase id phase).calls[other]? = manager.calls[other]? := by
  simp only [setPhase, getElem?_modify_ne _ _ hNe.symm]

/- The promise of the head of `readerLocks` resolves. -/
def resolveHead (manager : WalletStorageManager) (head : Nat) : WalletStorageManager :=
  { manager with
    calls := manager.calls.modify head (resolveCall .readerLocks) }

theorem resolveCall_cases (lock : LockQueue) (call : LockCall) :
  resolveCall lock call = call ∨ ∃ level resolved,
      call.phase = .waiting level resolved ∧ resolveCall lock call =
          { call with phase := .waiting level true } := by
  unfold resolveCall
  cases hPhase : call.phase with
  | waiting level resolved =>
    dsimp only
    split
    · exact .inr ⟨level, resolved, rfl, rfl⟩
    · exact .inl rfl
  | makingAvailable level => exact .inl rfl
  | body => exact .inl rfl
  | ended => exact .inl rfl

end WalletStorageManager

namespace LockInvariant

open WalletStorageManager

variable {manager next : WalletStorageManager} {id : Nat} {call nextCall : LockCall}

structure Update
  (manager next : WalletStorageManager) (id : Nat) (call nextCall : LockCall) : Prop where
  get : manager.calls[id]? = some call
  nextGet : next.calls[id]? = some nextCall
  others : ∀ other ≠ id, next.calls[other]? = manager.calls[other]?
  kind : nextCall.kind = call.kind
  parent : nextCall.parent = call.parent
  nodup : ∀ lock, (next.queue lock).Nodup
  queueOthers : ∀ lock, ∀ other ≠ id, other ∈ next.queue lock ↔ other ∈ manager.queue lock
  pushed : ∀ lock, id ∈ next.queue lock → nextCall.PushedOn lock
  queued : nextCall.PushedOn .readerLocks → id ∈ next.queue .readerLocks
  headOthers : ∀ other ≠ id, (manager.queue .readerLocks).head? = some other →
        (next.queue .readerLocks).head? = some other
  head : id ∈ next.queue .readerLocks → (next.queue .readerLocks).head? = some id ∨
        nextCall.phase = .waiting 0 false
  upper :
    ∀ lock, lock ≠ .readerLocks → id ∈ next.queue lock → (next.queue .readerLocks).head? = some id
  level : nextCall.AtLevel
  body : nextCall.phase = call.phase ∨ nextCall.phase = .ended ∨ call.parent = none
  children : call.phase = .body → nextCall.phase ≠ .body → ∀ (child : Nat) (childCall : LockCall),
        manager.calls[child]? = some childCall →
          childCall.parent = some id → childCall.phase ≠ .body

theorem Update.chained_self {parent : Nat} (hUpd : Update manager next id call nextCall)
  (hChained : ChainedTo manager id call parent) (hParent : call.parent = some parent) :
  ChainedTo next id nextCall parent := by
  rcases hChained with ⟨hLess, hKind, hPhase⟩
  refine ⟨hLess, hUpd.kind.trans hKind, ?_⟩
  rcases hUpd.body with hSame | hEnded | hNone
  · rw [hSame, hUpd.others parent (Nat.ne_of_lt hLess)]
    exact hPhase
  · exact .inl hEnded
  · rw [hNone] at hParent
    cases hParent

theorem Update.chained_ne
  {other parent : Nat} {otherCall : LockCall} (hUpd : Update manager next id call nextCall)
  (hGet : manager.calls[other]? = some otherCall) (hParent : otherCall.parent = some parent)
  (hChained : ChainedTo manager other otherCall parent) :
  ChainedTo next other otherCall parent := by
  rcases hChained with ⟨hLess, hKind, hPhase⟩
  refine ⟨hLess, hKind, ?_⟩
  rcases hPhase with hEnded | ⟨hBody, parentCall, hAt, hRuns⟩
  · exact .inl hEnded
  · apply Or.inr
    apply And.intro hBody
    by_cases hEq : parent = id
    · cases hEq
      rw [hUpd.get] at hAt
      cases hAt
      refine ⟨nextCall, hUpd.nextGet, hUpd.kind.trans hRuns.1, ?_⟩
      by_contra hEnded
      exact hUpd.children hRuns.2 hEnded other otherCall hGet hParent hBody
    · exact ⟨parentCall, (hUpd.others parent hEq).trans hAt, hRuns⟩

theorem update (hInv : LockInvariant manager) (hUpd : Update manager next id call nextCall) :
  LockInvariant next := by
  constructor
  case nodup => exact hUpd.nodup
  case pushed =>
    intro lock other hMem
    by_cases hEq : other = id
    · cases hEq
      exact ⟨nextCall, hUpd.nextGet, hUpd.pushed lock hMem⟩
    · rw [hUpd.others other hEq]
      exact hInv.pushed lock other ((hUpd.queueOthers lock other hEq).mp hMem)
  case queued =>
    intro other otherCall hGet hPushed
    by_cases hEq : other = id
    · cases hEq
      rw [hUpd.nextGet] at hGet
      cases hGet
      exact hUpd.queued hPushed
    · rw [hUpd.others other hEq] at hGet
      exact (hUpd.queueOthers _ other hEq).mpr (hInv.queued other otherCall hGet hPushed)
  case head =>
    intro other otherCall hGet hMem
    by_cases hEq : other = id
    · cases hEq
      rw [hUpd.nextGet] at hGet
      cases hGet
      exact hUpd.head hMem
    · rw [hUpd.others other hEq] at hGet
      rcases hInv.head other otherCall hGet ((hUpd.queueOthers _ other hEq).mp hMem) with
        hHead | hPhase
      · exact .inl (hUpd.headOthers other hEq hHead)
      · exact .inr hPhase
  case upper =>
    intro lock hNe other hMem
    by_cases hEq : other = id
    · cases hEq
      exact hUpd.upper lock hNe hMem
    · exact hUpd.headOthers other hEq (hInv.upper lock hNe other
        ((hUpd.queueOthers lock other hEq).mp hMem))
  case level =>
    intro other otherCall hGet
    by_cases hEq : other = id
    · cases hEq
      rw [hUpd.nextGet] at hGet
      cases hGet
      exact hUpd.level
    · rw [hUpd.others other hEq] at hGet
      exact hInv.level other otherCall hGet
  case chained =>
    intro other otherCall parent hGet hParent
    by_cases hEq : other = id
    · cases hEq
      rw [hUpd.nextGet] at hGet
      cases hGet
      rw [hUpd.parent] at hParent
      exact hUpd.chained_self (hInv.chained id call parent hUpd.get hParent) hParent
    · rw [hUpd.others other hEq] at hGet
      exact hUpd.chained_ne hGet hParent (hInv.chained other otherCall parent hGet hParent)

theorem resolveCall_keeps (lock : LockQueue) (call : LockCall) :
  (resolveCall lock call).kind = call.kind ∧ (resolveCall lock call).parent = call.parent ∧
    (resolveCall lock call).pushed = call.pushed ∧
    ((resolveCall lock call).AtLevel ↔ call.AtLevel) ∧
    (call.phase = .body ↔ (resolveCall lock call).phase = .body) ∧
    (call.phase = .ended ↔ (resolveCall lock call).phase = .ended) := by
  rcases resolveCall_cases lock call with hSame | ⟨level, resolved, hPhase, hRes⟩
  · rw [hSame]
    simp
  · rw [hRes]
    simp [LockCall.pushed, LockCall.AtLevel, hPhase]

section

variable (hInv : LockInvariant manager)

include hInv

/- The head of `readerLocks` may be told that it is. -/
theorem resolveHead (hHead : (manager.queue .readerLocks).head? = some id) :
  LockInvariant (manager.resolveHead id) := by
  have hMem : id ∈ manager.queue .readerLocks := mem_of_mem_head? hHead
  rcases hInv.pushed .readerLocks id hMem with ⟨call, hCall, hPushed⟩
  rcases resolveCall_keeps .readerLocks call with ⟨hKind, hParent, hCount, hLevel, hBody, hEnded⟩
  have hPushedOn : ∀ lock, (resolveCall .readerLocks call).PushedOn lock ↔ call.PushedOn lock := by
    intro lock
    unfold LockCall.PushedOn
    rw [hKind, hParent, hCount]
  apply hInv.update
  constructor
  case get => exact hCall
  case nextGet =>
    unfold WalletStorageManager.resolveHead
    rw [getElem?_modify_eq, hCall]
    rfl
  case others =>
    intro other hNe
    unfold WalletStorageManager.resolveHead
    rw [getElem?_modify_ne _ _ hNe.symm]
  case kind => exact hKind
  case parent => exact hParent
  case nodup => exact hInv.nodup
  case queueOthers => exact fun _ _ _ => Iff.rfl
  case headOthers => exact fun _ _ hOther => hOther
  case head => exact fun _ => .inl hHead
  case upper => exact fun _ _ _ => hHead
  case level => exact hLevel.mpr (hInv.level id call hCall)
  case body => exact .inr (Or.inr hPushed.1)
  case children =>
    intro hCallBody hNot
    exact absurd (hBody.mp hCallBody) hNot
  case pushed =>
    intro lock hQueue
    rcases hInv.pushed lock id hQueue with ⟨other, hOther, hOn⟩
    rw [hCall] at hOther
    cases hOther
    exact (hPushedOn lock).mpr hOn
  case queued => exact fun _ => hMem

theorem append (hPushed : call.parent = none → call.pushed = 0) (hLevel : call.AtLevel) (hChained :
    ∀ parent, call.parent = some parent → ChainedTo manager manager.calls.length call parent) :
  LockInvariant { manager with calls := manager.calls ++ [call] } := by
  have hCases : ∀ (id : Nat) (old : LockCall), (manager.calls ++ [call])[id]? = some old →
          manager.calls[id]? = some old ∨ id = manager.calls.length ∧ old = call := by
    intro id old hGet
    grind
  have hOld : ∀ (id : Nat) (old : LockCall), manager.calls[id]? = some old →
          (manager.calls ++ [call])[id]? = some old := by
    intro id old hGet
    grind
  have hFresh : ∀ lock, manager.calls.length ∉ manager.queue lock := by
    intro lock hMem
    rcases hInv.pushed lock _ hMem with ⟨old, hGet, -⟩
    simp at hGet
  have hChainedOld :
      ∀ (id : Nat) (old : LockCall) (parent : Nat), ChainedTo manager id old parent → ChainedTo
        { manager with calls := manager.calls ++ [call] }
        id old parent := by
    rintro id old parent ⟨hLess, hKind, hPhase⟩
    refine ⟨hLess, hKind, ?_⟩
    rcases hPhase with hEnded | ⟨hBody, parentCall, hGet, hRuns⟩
    · exact .inl hEnded
    · exact .inr ⟨hBody, parentCall, hOld parent parentCall hGet, hRuns⟩
  constructor
  case nodup => exact hInv.nodup
  case upper => exact hInv.upper
  case pushed =>
    intro lock id hMem
    rcases hInv.pushed lock id hMem with ⟨old, hGet, hOn⟩
    exact ⟨old, hOld id old hGet, hOn⟩
  case queued =>
    intro id old hGet hOn
    rcases hCases id old hGet with hGet | ⟨-, rfl⟩
    · exact hInv.queued id old hGet hOn
    · rcases hOn with ⟨hNone, level, hLess, -⟩
      rw [hPushed hNone] at hLess
      cases hLess
  case head =>
    intro id old hGet hMem
    rcases hCases id old hGet with hGet | ⟨rfl, -⟩
    · exact hInv.head id old hGet hMem
    · exact absurd hMem (hFresh _)
  case level =>
    intro id old hGet
    rcases hCases id old hGet with hGet | ⟨-, rfl⟩
    · exact hInv.level id old hGet
    · exact hLevel
  case chained =>
    intro id old parent hGet hParent
    rcases hCases id old hGet with hGet | ⟨rfl, rfl⟩
    · exact hChainedOld id old parent (hInv.chained id old parent hGet hParent)
    · exact hChainedOld _ _ parent (hChained parent hParent)

theorem setPhase {phase : CallPhase} (hCall : manager.calls[id]? = some call)
  (hPushedOn : ∀ lock, { call with phase := phase }.PushedOn lock ↔ call.PushedOn lock)
  (hHead : call.phase ≠ .waiting 0 false) (hLevel : { call with phase := phase }.AtLevel)
  (hBody : phase = call.phase ∨ phase = .ended ∨ call.parent = none)
  (hChildren : call.phase = .body → ∀ (child : Nat) (childCall : LockCall),
        manager.calls[child]? = some childCall →
          childCall.parent = some id → childCall.phase ≠ .body) :
  LockInvariant (manager.setPhase id phase) := by
  apply hInv.update
  constructor
  case get => exact hCall
  case nextGet => exact setPhase_get phase hCall
  case others =>
    intro other hNe
    exact setPhase_get_ne phase hNe
  case kind => rfl
  case parent => rfl
  case nodup => exact hInv.nodup
  case queueOthers => exact fun _ _ _ => Iff.rfl
  case headOthers => exact fun _ _ hOther => hOther
  case head =>
    intro hMem
    rcases hInv.head id call hCall hMem with hIsHead | hPhase
    · exact .inl hIsHead
    · exact absurd hPhase hHead
  case upper =>
    intro lock hNe hMem
    exact hInv.upper lock hNe id hMem
  case level => exact hLevel
  case body => exact hBody
  case children => exact fun hRuns _ => hChildren hRuns
  case pushed =>
    intro lock hMem
    rcases hInv.pushed lock id hMem with ⟨other, hOther, hOn⟩
    rw [hCall] at hOther
    cases hOther
    exact (hPushedOn lock).mpr hOn
  case queued =>
    intro hOn
    exact hInv.queued id call hCall ((hPushedOn .readerLocks).mp hOn)

end

end LockInvariant

-- Pushes

namespace WalletStorageManager

variable {manager : WalletStorageManager} {id : Nat}

theorem setQueue_queue (lock other : LockQueue) (ids : List Nat) :
  (manager.setQueue lock ids).queue other = if other = lock then ids else manager.queue other :=
  rfl

theorem pushLock_queue (kind : RunKind) (level : Nat) (lock : LockQueue) :
  (manager.pushLock id kind level).queue lock =
    if lock = levelQueue kind level then manager.queue lock ++ [id]
    else manager.queue lock := by
  unfold pushLock
  show (manager.setQueue _ _).queue lock = _
  rw [setQueue_queue]
  split
  · next hEq => rw [hEq]
  · rfl

end WalletStorageManager

namespace LockInvariant

open WalletStorageManager

variable {manager : WalletStorageManager} {id level : Nat} {call : LockCall}

section

variable (hInv : LockInvariant manager) (hCall : manager.calls[id]? = some call)

include hInv hCall

/- A call that got past its first lock heads `readerLocks`. -/
theorem head_of_pushed (hParent : call.parent = none) (hPushed : 0 < call.pushed)
  (hPhase : call.phase ≠ .waiting 0 false) : (manager.queue .readerLocks).head? = some id := by
  have hQueued := hInv.queued id call hCall (LockCall.pushedOn_readerLocks hParent hPushed)
  rcases hInv.head id call hCall hQueued with hHead | hWaits
  · exact hHead
  · exact absurd hWaits hPhase

theorem parent_none
  (hBody : call.phase ≠ .body) (hEnded : call.phase ≠ .ended) : call.parent = none := by
  cases hParent : call.parent with
  | none => rfl
  | some parent =>
    rcases hInv.chained id call parent hCall hParent with ⟨-, -, hPhase | ⟨hPhase, -⟩⟩
    · exact absurd hPhase hEnded
    · exact absurd hPhase hBody

theorem not_mem_level (hLevel : call.pushed < call.kind.locks.length) :
  id ∉ manager.queue (levelQueue call.kind call.pushed) := by
  intro hMem
  rcases hInv.pushed _ id hMem with ⟨other, hOther, -, level, hLess, hEq⟩
  rw [hCall] at hOther
  cases hOther
  have hSame := levelQueue_inj (Nat.lt_trans hLess hLevel) hLevel hEq
  exact absurd hSame (Nat.ne_of_lt hLess)

/-
  A call takes its place in the queue of its next level.
  Beyond the first, only the head of `readerLocks` does.
-/
theorem pushLock (hParent : call.parent = none) (hBody : call.phase ≠ .body)
  (hLevel : call.pushed < call.kind.locks.length)
  (hHead : call.pushed = 0 ∨ (manager.queue .readerLocks).head? = some id) :
  LockInvariant (manager.pushLock id call.kind call.pushed) := by
  have hFresh := hInv.not_mem_level hCall hLevel
  have hOld : ∀ lock, id ∈ manager.queue lock → call.PushedOn lock := by
    intro lock hMem
    rcases hInv.pushed lock id hMem with ⟨other, hOther, hOn⟩
    rw [hCall] at hOther
    cases hOther
    exact hOn
  have hReader : .readerLocks = levelQueue call.kind call.pushed ↔ call.pushed = 0 := by
    constructor
    · intro hEq
      rw [← levelQueue_zero call.kind] at hEq
      exact (levelQueue_inj (Nat.lt_of_le_of_lt (Nat.zero_le _) hLevel) hLevel hEq).symm
    · intro hZero
      rw [hZero, levelQueue_zero]
  apply hInv.update
  constructor
  case get => exact hCall
  case nextGet => exact setPhase_get _ hCall
  case others =>
    intro other hNe
    exact setPhase_get_ne _ hNe
  case kind => rfl
  case parent => rfl
  case nodup =>
    intro lock
    rw [pushLock_queue]
    split
    · next hEq =>
        rw [hEq]
        apply List.Nodup.append (hInv.nodup _) (nodup_singleton id)
        intro other hMem hSingle
        rw [mem_singleton] at hSingle
        cases hSingle
        exact hFresh hMem
    · exact hInv.nodup lock
  case queueOthers =>
    intro lock other hNe
    rw [pushLock_queue]
    split
    · simp [hNe]
    · exact Iff.rfl
  case pushed =>
    intro lock hMem
    refine ⟨hParent, ?_⟩
    rw [pushLock_queue] at hMem
    by_cases hEq : lock = levelQueue call.kind call.pushed
    · exact ⟨call.pushed, Nat.lt_succ_self _, hEq.symm⟩
    · rw [if_neg hEq] at hMem
      rcases hOld lock hMem with ⟨-, other, hLess, hOn⟩
      exact ⟨other, Nat.lt_succ_of_lt hLess, hOn⟩
  case queued =>
    intro _
    rw [pushLock_queue]
    split
    · simp
    · next hNe =>
        have hPos : 0 < call.pushed := Nat.pos_of_ne_zero (fun hZero => hNe (hReader.mpr hZero))
        exact hInv.queued id call hCall (LockCall.pushedOn_readerLocks hParent hPos)
  case headOthers =>
    intro other _ hOther
    rw [pushLock_queue]
    split
    · rw [head?_append, hOther]
      rfl
    · exact hOther
  case head =>
    intro _
    rw [pushLock_queue]
    split
    · next hEq =>
        have hZero := hReader.mp hEq
        cases hQueue : manager.queue .readerLocks with
        | nil => exact .inl rfl
        | cons first rest =>
          right
          rw [← hEq, hQueue, hZero]
          simp
    · next hNe =>
        left
        rcases hHead with hZero | hIsHead
        · exact absurd (hReader.mpr hZero) hNe
        · exact hIsHead
  case upper =>
    intro lock hNe hMem
    rcases hHead with hZero | hIsHead
    · rw [pushLock_queue, hZero, levelQueue_zero, if_neg hNe] at hMem
      rcases hOld lock hMem with ⟨-, other, hLess, -⟩
      rw [hZero] at hLess
      cases hLess
    · rw [pushLock_queue]
      split
      · rw [head?_append, hIsHead]
        rfl
      · exact hIsHead
  case level => exact hLevel
  case body => exact .inr (Or.inr hParent)
  case children => exact fun hRuns => absurd hRuns hBody

end

end LockInvariant

-- Releases

namespace WalletStorageManager

variable {manager : WalletStorageManager} {id : Nat}

/- Some queues lose their heads. -/
def dropLocks (manager : WalletStorageManager) (locks : List LockQueue) : WalletStorageManager :=
  { manager with
    queue := fun lock =>
      if lock ∈ locks then (manager.queue lock).tail
      else manager.queue lock }

/- The new head of `readerLocks` is told, if there is one. -/
def tellHead (manager : WalletStorageManager) : WalletStorageManager :=
  match manager.queue .readerLocks with
  | [] => manager
  | head :: _ => manager.resolveHead head

theorem releaseActiveLock_of_tail (hTail : (manager.queue lock).tail = []) :
  manager.releaseActiveLock lock = manager.setQueue lock [] := by
  unfold releaseActiveLock
  rw [hTail]

theorem releaseActiveLock_readerLocks :
  manager.releaseActiveLock .readerLocks = (manager.setQueue .readerLocks
      (manager.queue .readerLocks).tail).tellHead := by
  unfold releaseActiveLock tellHead
  rw [setQueue_queue, if_pos rfl]
  rfl

/- Queues where nobody waits are dropped one by one. -/
theorem foldl_releaseActiveLock (locks : List LockQueue) (hUpper : .readerLocks ∉ locks)
  (hTail : ∀ lock, lock ≠ .readerLocks → (manager.queue lock).tail = []) :
  locks.foldl releaseActiveLock manager = manager.dropLocks locks := by
  induction locks generalizing manager with
  | nil =>
    unfold dropLocks
    simp
  | cons lock locks ih =>
    rw [mem_cons, not_or] at hUpper
    have hLock := hTail lock (Ne.symm hUpper.1)
    have hNext : ∀ other, other ≠ .readerLocks → ((manager.setQueue lock []).queue other).tail =
            [] := by
      intro other hNe
      rw [setQueue_queue]
      split
      · rfl
      · exact hTail other hNe
    rw [foldl_cons, releaseActiveLock_of_tail hLock, ih hUpper.2 hNext]
    unfold dropLocks setQueue
    congr 1
    funext other
    by_cases hEq : other = lock
    · simp [hEq, hLock]
    · simp [hEq]

/- Above `readerLocks` nobody waits, so a release tells only the next call of `readerLocks`. -/
theorem release_eq
  (kind : RunKind) (hTail : ∀ lock, lock ≠ .readerLocks → (manager.queue lock).tail = []) :
  manager.release id kind = ((manager.dropLocks kind.locks).tellHead).setPhase id
      .ended := by
  have hLocks : ∃ upper, kind.locks = .readerLocks :: upper ∧ .readerLocks ∉ upper := by
    cases kind <;> exact ⟨_, rfl, by decide⟩
  rcases hLocks with ⟨upper, hLocks, hUpper⟩
  have hDrop : (manager.dropLocks upper.reverse).setQueue .readerLocks
          ((manager.dropLocks upper.reverse).queue .readerLocks).tail =
        manager.dropLocks kind.locks := by
    rw [hLocks]
    unfold setQueue dropLocks
    congr 1
    funext lock
    by_cases hEq : lock = .readerLocks
    · simp [hEq, hUpper]
    · simp [hEq]
  unfold release
  rw [hLocks, reverse_cons, foldl_append,
    foldl_releaseActiveLock upper.reverse (by rwa [mem_reverse]) hTail,
    foldl_cons, foldl_nil, releaseActiveLock_readerLocks, hDrop, hLocks]

theorem tellHead_setPhase (phase : CallPhase) (hNe : (manager.queue .readerLocks).head? ≠ some id) :
  manager.tellHead.setPhase id phase = (manager.setPhase id phase).tellHead := by
  have hQueue : (manager.setPhase id phase).queue .readerLocks = manager.queue .readerLocks := rfl
  unfold tellHead
  rw [hQueue]
  cases hReaders : manager.queue .readerLocks with
  | nil => rfl
  | cons head rest =>
    rw [hReaders] at hNe
    have hHead : head ≠ id := by
      intro hEq
      exact hNe (congrArg some hEq)
    unfold resolveHead setPhase
    congr 1
    apply ext_getElem?
    intro index
    grind

end WalletStorageManager

namespace LockInvariant

open WalletStorageManager

variable {manager : WalletStorageManager} {id : Nat} {call : LockCall}

section

variable (hInv : LockInvariant manager)

include hInv

theorem tellHead : LockInvariant manager.tellHead := by
  unfold WalletStorageManager.tellHead
  cases hReaders : manager.queue .readerLocks with
  | nil => exact hInv
  | cons head rest =>
    apply hInv.resolveHead
    rw [hReaders]
    rfl

/- Above `readerLocks` a queue holds its head, or nothing. -/
theorem upper_tail (hNe : lock ≠ .readerLocks) : (manager.queue lock).tail = [] := by
  cases hQueue : manager.queue lock with
  | nil => rfl
  | cons first rest =>
    cases rest with
    | nil => rfl
    | cons second rest =>
      have hFst := hInv.upper lock hNe first (by
        rw [hQueue]
        exact mem_cons_self)
      have hSnd := hInv.upper lock hNe second (by
        rw [hQueue]
        exact mem_cons_of_mem _ mem_cons_self)
      rw [hFst] at hSnd
      have hNodup := hInv.nodup lock
      rw [hQueue, Option.some.inj hSnd] at hNodup
      exact absurd mem_cons_self (nodup_cons.mp hNodup).1

/- No call but the released one is in a dropped place. -/
theorem dropLocks_mem (locks : List LockQueue)
  (hOwn : ∀ head, (manager.queue .readerLocks).head? = some head → head = id)
  {other : Nat} (hNe : other ≠ id) :
  other ∈ (manager.dropLocks locks).queue lock ↔ other ∈ manager.queue lock := by
  unfold dropLocks
  dsimp only
  split
  · by_cases hReader : lock = .readerLocks
    · rw [hReader]
      cases hQueue : manager.queue .readerLocks with
      | nil => exact Iff.rfl
      | cons head rest =>
        rw [hQueue] at hOwn
        have hHead := hOwn head rfl
        rw [tail_cons, mem_cons, hHead]
        constructor
        · exact .inr
        · intro hMem
          rcases hMem with hEq | hMem
          · exact absurd hEq hNe
          · exact hMem
    · rw [hInv.upper_tail hReader]
      constructor
      · intro hMem
        cases hMem
      · intro hMem
        exact absurd (hOwn other (hInv.upper lock hReader other hMem)) hNe
  · exact Iff.rfl

/- A call that is over leaves its queues, if `readerLocks` is its own to release or is empty. -/
theorem release (hCall : manager.calls[id]? = some call)
  (hOwn : ∀ head, (manager.queue .readerLocks).head? = some head → head = id)
  (hChildren : call.phase = .body → ∀ (child : Nat) (childCall : LockCall),
        manager.calls[child]? = some childCall →
          childCall.parent = some id → childCall.phase ≠ .body) :
  LockInvariant (manager.release id call.kind) := by
  have hGone : ∀ lock, id ∉ (manager.dropLocks call.kind.locks).queue lock := by
    intro lock hMem
    unfold dropLocks at hMem
    dsimp only at hMem
    split at hMem
    · by_cases hReader : lock = .readerLocks
      · rw [hReader] at hMem
        cases hQueue : manager.queue .readerLocks with
        | nil =>
          rw [hQueue] at hMem
          cases hMem
        | cons head rest =>
          rw [hQueue] at hOwn
          have hNodup := hInv.nodup .readerLocks
          rw [hQueue, hOwn head rfl] at hNodup
          rw [hQueue] at hMem
          exact (nodup_cons.mp hNodup).1 hMem
      · rw [hInv.upper_tail hReader] at hMem
        cases hMem
    · next hLock =>
        rcases hInv.pushed lock id hMem with ⟨other, hOther, hOn⟩
        rw [hCall] at hOther
        cases hOther
        exact hLock (hOn.mem_locks (hInv.level id call hCall))
  have hNotHead : ((manager.dropLocks call.kind.locks).queue .readerLocks).head? ≠ some id := by
    intro hHead
    exact hGone _ (mem_of_mem_head? hHead)
  rw [release_eq call.kind (fun lock hNe => hInv.upper_tail hNe), tellHead_setPhase _ hNotHead]
  apply tellHead
  apply hInv.update
  constructor
  case get => exact hCall
  case nextGet =>
    have hGet : (manager.dropLocks call.kind.locks).calls[id]? = some call := hCall
    exact setPhase_get .ended hGet
  case others =>
    intro other hNe
    exact setPhase_get_ne _ hNe
  case kind => rfl
  case parent => rfl
  case nodup =>
    intro lock
    show ((manager.dropLocks call.kind.locks).queue lock).Nodup
    unfold dropLocks
    dsimp only
    split
    · exact (hInv.nodup lock).sublist (tail_sublist _)
    · exact hInv.nodup lock
  case queueOthers =>
    intro lock other hNe
    exact hInv.dropLocks_mem _ hOwn hNe
  case headOthers =>
    intro other hNe hHead
    exact absurd (hOwn other hHead) hNe
  case pushed => exact fun lock hMem => absurd hMem (hGone lock)
  case head => exact fun hMem => absurd hMem (hGone _)
  case upper => exact fun lock _ hMem => absurd hMem (hGone lock)
  case queued =>
    rintro ⟨-, level, hLess, -⟩
    cases hLess
  case level => exact trivial
  case body => exact .inr (Or.inl rfl)
  case children => exact fun hRuns _ => hChildren hRuns

end

end LockInvariant

end TsStack.Wallet
