import TsStack.Chaintracks.BlockHeader
import TsStack.Lib.EventRun

/-
  `SingleWriterMultiReaderLock` and the tasks that take it.

  A body that ends hands the lock over by resolving promises,
  and only the tasks that wait for them mark the lock as
  taken, when they resume.
-/

-- The lock

open List Option

namespace TsStack.Chaintracks

/-
  The lock and its tasks.  A task is resuming between the call that resolves its promise and the
  microtask that resumes it, and its body runs until its `finally`.
-/
structure SingleWriterMultiReaderLock where
  maxQueued : Nat
  readers : Nat
  writerActive : Bool
  readerQueue : List Nat
  writerQueue : List Nat
  resumingReaders : List Nat
  resumingWriters : List Nat
  readerBodies : List Nat
  writerBodies : List Nat
deriving DecidableEq, Repr

namespace SingleWriterMultiReaderLock

def create (maxQueued : Int) : Except ChaintracksError SingleWriterMultiReaderLock :=
  if maxQueued < 1 ∨ 100000 < maxQueued then
    .error (.invalidParameter "maxQueued" "an integer from 1 through 100000")
  else
    .ok ⟨maxQueued.toNat, 0, false, [], [], [], [], [], []⟩

variable (lock : SingleWriterMultiReaderLock) (task : Nat)

def assertQueueCapacity : Except ChaintracksError Unit :=
  if lock.maxQueued ≤ lock.readerQueue.length + lock.writerQueue.length then
    .error (.invalidOperation ("Chaintracks lock queue reached its " ++ toString lock.maxQueued ++
      "-operation limit"))
  else
    .ok ()

def checkQueues : SingleWriterMultiReaderLock :=
  if lock.writerActive ∨ 0 < lock.readers then lock
  else
    match lock.writerQueue with
    | task :: tasks =>
      { lock with writerQueue := tasks, resumingWriters := lock.resumingWriters ++ [task] }
    | [] =>
      { lock with
        readerQueue := [], resumingReaders := lock.resumingReaders ++ lock.readerQueue }

/- `readers++`, and the call of `fn`. -/
def startRead : SingleWriterMultiReaderLock :=
  { lock with readers := lock.readers + 1, readerBodies := lock.readerBodies ++ [task] }

/- `writerActive = true`, and the call of `fn`. -/
def startWrite : SingleWriterMultiReaderLock :=
  { lock with writerActive := true, writerBodies := lock.writerBodies ++ [task] }

/- The `finally` of a reader, whether its `fn` threw or not. -/
def endRead : SingleWriterMultiReaderLock :=
  checkQueues
    { lock with readers := lock.readers - 1, readerBodies := lock.readerBodies.erase task }

def endWrite : SingleWriterMultiReaderLock :=
  checkQueues { lock with writerActive := false, writerBodies := lock.writerBodies.erase task }

/- `withReadLock` up to its first `await`. -/
def withReadLock :
  Except ChaintracksError SingleWriterMultiReaderLock :=
  if lock.writerActive = false ∧ lock.writerQueue = [] then
    .ok (lock.startRead task)
  else do
    lock.assertQueueCapacity
    return { lock with readerQueue := lock.readerQueue ++ [task] }

def withWriteLock :
  Except ChaintracksError SingleWriterMultiReaderLock :=
  if lock.writerActive = false ∧ lock.readers = 0 then
    .ok (lock.startWrite task)
  else do
    lock.assertQueueCapacity
    return { lock with writerQueue := lock.writerQueue ++ [task] }

-- Its tasks

/- What the tasks do between two awaits. -/
inductive LockEvent where
| withReadLock (task : Nat)
| withWriteLock (task : Nat)
| resumeReader (task : Nat)
| resumeWriter (task : Nat)
| endRead (task : Nat)
| endWrite (task : Nat)

/- Resolved promises may resume in any order. -/
def step : LockEvent → Option SingleWriterMultiReaderLock
-- a call that throws leaves the lock as it is
| .withReadLock task => some ((lock.withReadLock task).toOption.getD lock)
| .withWriteLock task => some ((lock.withWriteLock task).toOption.getD lock)
| .resumeReader task =>
  if task ∈ lock.resumingReaders then
    some ({ lock with resumingReaders := lock.resumingReaders.erase task }.startRead task)
  else none
| .resumeWriter task =>
  if task ∈ lock.resumingWriters then
    some ({ lock with resumingWriters := lock.resumingWriters.erase task }.startWrite task)
  else none
| .endRead task => if task ∈ lock.readerBodies then some (lock.endRead task) else none
| .endWrite task => if task ∈ lock.writerBodies then some (lock.endWrite task) else none

/- A writer's body runs alone. -/
def Excludes : Prop :=
  lock.writerBodies = [] ∨ lock.writerBodies.length = 1 ∧ lock.readerBodies = []

instance : Decidable lock.Excludes :=
  inferInstanceAs (Decidable (_ ∨ _))

/- No task is queued when no body runs and none is to resume. -/
def Drained : Prop :=
  lock.readerBodies = [] → lock.writerBodies = [] → lock.resumingReaders = [] →
    lock.resumingWriters = [] → lock.readerQueue = [] ∧ lock.writerQueue = []

/-
  No task gets ahead of one that the lock was handed over to: none enters at once while a writer
  is resuming, no writer does while a reader is, and then the last reader does not hand the lock
  over to a writer.
-/
def orderly : LockEvent → Bool
| .withReadLock _ =>
  lock.writerActive || lock.writerQueue ≠ [] || lock.resumingWriters = []
| .withWriteLock _ =>
  lock.writerActive || lock.readers ≠ 0 ||
    lock.resumingWriters = [] && lock.resumingReaders = []
| .endRead _ => lock.readers ≠ 1 || lock.writerQueue = [] || lock.resumingReaders = []
| _ => true

-- What every step keeps

structure Counted (lock : SingleWriterMultiReaderLock) : Prop where
  readers : lock.readers = lock.readerBodies.length
  active : lock.writerActive → lock.writerBodies ≠ []
  drained : lock.Drained

structure Handed (lock : SingleWriterMultiReaderLock) : Prop extends Counted lock where
  writing : lock.writerBodies ≠ [] → lock.writerActive
  one : lock.resumingWriters.length + lock.writerBodies.length ≤ 1
  alone : 0 < lock.resumingWriters.length + lock.writerBodies.length →
      lock.readerBodies = [] ∧ lock.resumingReaders = []

variable {lock} {next : SingleWriterMultiReaderLock} {event : LockEvent}

theorem create_handed {maxQueued : Int} (hCreate : create maxQueued = .ok lock) : lock.Handed := by
  unfold create at hCreate
  split at hCreate
  · cases hCreate
  · cases hCreate
    exact ⟨⟨rfl, by simp, by simp [Drained]⟩, by simp, by simp, by simp⟩

theorem call_cases {free : Prop} [Decidable free] {entered queued : SingleWriterMultiReaderLock}
  (hCall : (if free then .ok entered else do
    lock.assertQueueCapacity
    return queued : Except ChaintracksError _).toOption.getD lock = next) :
  next = lock ∨ free ∧ next = entered ∨ ¬ free ∧ next = queued := by
  rw [← hCall]
  unfold assertQueueCapacity
  split
  · exact .inr (.inl ⟨‹_›, rfl⟩)
  · split
    · exact .inl rfl
    · exact .inr (.inr ⟨‹_›, rfl⟩)

/- The end of a body leaves no task queued with nobody to come. -/
theorem Counted.checkQueues (hReaders : lock.readers = lock.readerBodies.length)
  (hAct : lock.writerActive → lock.writerBodies ≠ []) : lock.checkQueues.Counted := by
  unfold SingleWriterMultiReaderLock.checkQueues
  split
  · rename_i hTaken
    refine ⟨hReaders, hAct, fun hRead hWrite => ?_⟩
    rcases hTaken with hWriter | hReader
    · exact absurd hWrite (hAct hWriter)
    · rw [hReaders, hRead] at hReader
      exact absurd hReader (lt_irrefl 0)
  · split
    · exact ⟨hReaders, hAct, fun _ _ _ hResuming => by simp at hResuming⟩
    · rename_i hQueue
      refine ⟨hReaders, hAct, fun _ _ _ _ => ⟨rfl, hQueue⟩⟩

theorem Counted.step (hCounted : lock.Counted) (hStep : lock.step event = some next) :
  next.Counted := by
  rcases hCounted with ⟨hReaders, hAct, hDrained⟩
  cases event with
  | withReadLock task =>
    rcases call_cases (some.inj hStep) with rfl | ⟨-, rfl⟩ | ⟨hTaken, rfl⟩
    · exact ⟨hReaders, hAct, hDrained⟩
    · exact ⟨by simp [startRead, hReaders], hAct, by simp [Drained, startRead]⟩
    · refine ⟨hReaders, hAct, fun hRead hWrite hResumingR hResumingW => absurd ?_ hTaken⟩
      exact ⟨Bool.eq_false_iff.mpr fun hWriter => hAct hWriter hWrite,
        (hDrained hRead hWrite hResumingR hResumingW).2⟩
  | withWriteLock task =>
    rcases call_cases (some.inj hStep) with rfl | ⟨-, rfl⟩ | ⟨hTaken, rfl⟩
    · exact ⟨hReaders, hAct, hDrained⟩
    · exact ⟨hReaders, by simp [startWrite], by simp [Drained, startWrite]⟩
    · refine ⟨hReaders, hAct, fun hRead hWrite _ _ => absurd ?_ hTaken⟩
      exact ⟨Bool.eq_false_iff.mpr fun hWriter => hAct hWriter hWrite,
        by rw [hReaders, hRead, length_nil]⟩
  | resumeReader task =>
    rcases ite_none_right_eq_some.mp hStep with ⟨-, ⟨⟩⟩
    exact ⟨by simp [startRead, hReaders], hAct, by simp [Drained, startRead]⟩
  | resumeWriter task =>
    rcases ite_none_right_eq_some.mp hStep with ⟨-, ⟨⟩⟩
    exact ⟨hReaders, by simp [startWrite], by simp [Drained, startWrite]⟩
  | endRead task =>
    rcases ite_none_right_eq_some.mp hStep with ⟨hBody, ⟨⟩⟩
    exact .checkQueues (by simp [length_erase_of_mem hBody, hReaders]) hAct
  | endWrite task =>
    rcases ite_none_right_eq_some.mp hStep with ⟨hBody, ⟨⟩⟩
    exact .checkQueues hReaders (by simp)

-- What the orderly steps keep

theorem Handed.excludes (hHanded : lock.Handed) : lock.Excludes := by
  cases hBodies : lock.writerBodies with
  | nil => exact .inl hBodies
  | cons writer writers =>
    have hOne := hHanded.one
    have hAlone := hHanded.alone
    rw [hBodies, length_cons] at hOne hAlone
    refine .inr ⟨?_, (hAlone (by omega)).1⟩
    rw [hBodies, length_cons]
    omega

theorem Handed.checkQueues (hCounted : lock.checkQueues.Counted)
  (hReaders : lock.readers = lock.readerBodies.length) (hAct : lock.writerActive = false)
  (hBodies : lock.writerBodies = []) (hResuming : lock.resumingWriters = [])
  (hOrderly : lock.readers = 0 → lock.writerQueue ≠ [] → lock.resumingReaders = []) :
  lock.checkQueues.Handed := by
  revert hCounted
  unfold SingleWriterMultiReaderLock.checkQueues
  split
  · exact fun hCounted => ⟨hCounted, by simp [hBodies], by simp [hBodies, hResuming],
      by simp [hBodies, hResuming]⟩
  · rename_i hFree
    have hNone : lock.readers = 0 := by simpa [hAct] using hFree
    split
    · rename_i hQueue
      have hRead : lock.readerBodies = [] := by
        rwa [hReaders, length_eq_zero_iff] at hNone
      exact fun hCounted => ⟨hCounted, by simp [hBodies], by simp [hBodies, hResuming],
        fun _ => ⟨hRead, hOrderly hNone (by simp [hQueue])⟩⟩
    · exact fun hCounted => ⟨hCounted, by simp [hBodies], by simp [hBodies, hResuming],
        by simp [hBodies, hResuming]⟩

theorem Handed.step
  (hHanded : lock.Handed) (hStep : lock.step event = some next) (hOrderly : lock.orderly event) :
  next.Handed := by
  have hCounted := hHanded.toCounted.step hStep
  rcases hHanded with ⟨⟨hReaders, hAct, hDrained⟩, hWriting, hOne, hAlone⟩
  cases event with
  | withReadLock task =>
    rcases call_cases (some.inj hStep) with rfl | ⟨⟨hFree, hQueue⟩, rfl⟩ | ⟨-, rfl⟩
    · exact ⟨hCounted, hWriting, hOne, hAlone⟩
    · have hBodies : lock.writerBodies = [] := by
        by_contra hBody
        exact absurd (hWriting hBody) (by simp [hFree])
      have hResuming : lock.resumingWriters = [] := by
        simpa [orderly, hFree, hQueue] using hOrderly
      exact ⟨hCounted, hWriting, hOne, by simp [startRead, hBodies, hResuming]⟩
    · exact ⟨hCounted, hWriting, hOne, hAlone⟩
  | withWriteLock task =>
    rcases call_cases (some.inj hStep) with rfl | ⟨⟨hFree, hNone⟩, rfl⟩ | ⟨-, rfl⟩
    · exact ⟨hCounted, hWriting, hOne, hAlone⟩
    · have hBodies : lock.writerBodies = [] := by
        by_contra hBody
        exact absurd (hWriting hBody) (by simp [hFree])
      have hResuming : lock.resumingWriters = [] ∧ lock.resumingReaders = [] := by
        simpa [orderly, hFree, hNone] using hOrderly
      have hRead : lock.readerBodies = [] := by
        rwa [hReaders, length_eq_zero_iff] at hNone
      refine ⟨hCounted, fun _ => rfl, by simp [startWrite, hBodies, hResuming], fun _ => ?_⟩
      exact ⟨hRead, hResuming.2⟩
    · exact ⟨hCounted, hWriting, hOne, hAlone⟩
  | resumeReader task =>
    rcases ite_none_right_eq_some.mp hStep with ⟨hResuming, ⟨⟩⟩
    refine ⟨hCounted, hWriting, hOne, fun hSome => ?_⟩
    rw [(hAlone hSome).2] at hResuming
    cases hResuming
  | resumeWriter task =>
    rcases ite_none_right_eq_some.mp hStep with ⟨hResuming, ⟨⟩⟩
    have hPos := length_pos_of_mem hResuming
    refine ⟨hCounted, fun _ => rfl, ?_, fun _ => hAlone (by omega)⟩
    simp only [startWrite, length_erase_of_mem hResuming, length_append,
      length_singleton]
    omega
  | endRead task =>
    rcases ite_none_right_eq_some.mp hStep with ⟨hBody, ⟨⟩⟩
    have hNone : lock.resumingWriters.length + lock.writerBodies.length = 0 := by
      by_contra hSome
      rw [(hAlone (by omega)).1] at hBody
      cases hBody
    have hBodies := length_eq_zero_iff.mp (Nat.eq_zero_of_add_eq_zero_left hNone)
    have hPos := length_pos_of_mem hBody
    apply Handed.checkQueues hCounted
    · simp [length_erase_of_mem hBody, hReaders]
    · simpa [hBodies] using hAct
    · exact hBodies
    · exact length_eq_zero_iff.mp (Nat.eq_zero_of_add_eq_zero_right hNone)
    · intro hLast hQueue
      have hSingle : lock.readers = 1 := by
        dsimp only at hLast
        omega
      simpa [orderly, hSingle, hQueue] using hOrderly
  | endWrite task =>
    rcases ite_none_right_eq_some.mp hStep with ⟨hBody, ⟨⟩⟩
    have hPos := length_pos_of_mem hBody
    apply Handed.checkQueues hCounted hReaders rfl
    · apply length_eq_zero_iff.mp
      rw [length_erase_of_mem hBody]
      omega
    · apply length_eq_zero_iff.mp
      dsimp only
      omega
    · exact fun _ _ => (hAlone (by omega)).2

/-
  The queues are drained in every run, and a writer's body
  runs alone in every run that is orderly.
-/
theorem excludes_of_orderly (maxQueued : Int) {lock last : SingleWriterMultiReaderLock}
  (events : List LockEvent) (hCreate : create maxQueued = .ok lock)
  (hRun : events.foldlM step lock = some last) :
  (EventRun.Along step (fun lock event _ => lock.orderly event) lock events → last.Excludes) ∧
    last.Drained := by
  have hHanded := create_handed hCreate
  constructor
  · intro hOrderly
    have hLast : last.Handed :=
      EventRun.inv_of_along (fun _ _ _ hBefore hStep hGood => hBefore.step hStep hGood)
        events hHanded hRun hOrderly
    exact hLast.excludes
  · have hLast : last.Counted :=
      EventRun.inv_of_run (fun _ _ _ hBefore hStep => hBefore.step hStep)
        events hHanded.toCounted hRun
    exact hLast.drained

theorem excludes_of_orderly_two_writers :
  (⟨4096, 0, true, [], [], [], [], [], [1]⟩ : SingleWriterMultiReaderLock).Excludes :=
  (excludes_of_orderly 4096 [.withWriteLock 0, .withWriteLock 1, .endWrite 0, .resumeWriter 1]
    rfl rfl).1 (by decide)

/- Task 2 reads at once, between the end of the first writer and the resumption of the second. -/
theorem reader_beside_writer :
  ¬ ∀ (lock last : SingleWriterMultiReaderLock) (events : List LockEvent),
    create 4096 = .ok lock → events.foldlM step lock = some last → last.Excludes := by
  intro hExcludes
  have hLast := hExcludes _ ⟨4096, 1, true, [], [], [], [], [2], [1]⟩
    [.withWriteLock 0, .withWriteLock 1, .endWrite 0, .withReadLock 2, .resumeWriter 1] rfl rfl
  exact absurd hLast (by decide)

-- What the lock owes its tasks

def LockEvent.isCall : LockEvent → Bool
| .withReadLock _ | .withWriteLock _ => true
| _ => false

@[simp] def LockEvent.ends (task : Nat) : LockEvent → Nat
| .endRead ended | .endWrite ended => if ended = task then 1 else 0
| _ => 0

/- The tasks in a queue, and those that are to resume. -/
@[simp] def waiting (lock : SingleWriterMultiReaderLock) : List Nat :=
  lock.readerQueue ++ lock.writerQueue ++ (lock.resumingReaders ++ lock.resumingWriters)

@[simp] def running (lock : SingleWriterMultiReaderLock) : List Nat :=
  lock.readerBodies ++ lock.writerBodies

/- A waiting task resumes and ends, and a running one ends. -/
@[simp] def stepsLeft (lock : SingleWriterMultiReaderLock) : Nat :=
  2 * lock.waiting.length + lock.running.length

variable {lock middle last next : SingleWriterMultiReaderLock} {event : LockEvent}

theorem tasks_checkQueues (lock : SingleWriterMultiReaderLock) :
  lock.checkQueues.waiting.Perm lock.waiting ∧ lock.checkQueues.running = lock.running := by
  unfold checkQueues
  split
  · exact ⟨.refl _, rfl⟩
  · split
    all_goals
      refine ⟨perm_iff_count.mpr fun task => ?_, rfl⟩
      simp [*, count_cons]
      omega

/- A task moves on or ends: none is lost, and none comes twice. -/
theorem tasks_step (hStep : lock.step event = some next) (hMoves : event.isCall = false) :
  lock.stepsLeft = next.stepsLeft + 1 ∧ ∀ task,
    (lock.waiting ++ lock.running).count task =
      (next.waiting ++ next.running).count task + event.ends task := by
  have hErase : ∀ {tasks : List Nat} {moved : Nat}, moved ∈ tasks →
      tasks.length = (tasks.erase moved).length + 1 ∧
        ∀ task, tasks.count task =
          (tasks.erase moved).count task + if moved = task then 1 else 0 := by
    intro tasks moved hMem
    have hPerm := perm_cons_erase hMem
    exact ⟨hPerm.length_eq, fun task => by simp [hPerm.count_eq, count_cons]⟩
  cases event with
  | withReadLock task => cases hMoves
  | withWriteLock task => cases hMoves
  | resumeReader task =>
    rcases ite_none_right_eq_some.mp hStep with ⟨hIn, ⟨⟩⟩
    refine ⟨?_, fun other => ?_⟩
    · simp [startRead, (hErase hIn).1]
      omega
    · simp [startRead, (hErase hIn).2 other, count_cons]
      omega
  | resumeWriter task =>
    rcases ite_none_right_eq_some.mp hStep with ⟨hIn, ⟨⟩⟩
    refine ⟨?_, fun other => ?_⟩
    · simp [startWrite, (hErase hIn).1]
      omega
    · simp [startWrite, (hErase hIn).2 other, count_cons]
      omega
  | endRead task =>
    rcases ite_none_right_eq_some.mp hStep with ⟨hIn, ⟨⟩⟩
    rcases tasks_checkQueues { lock with
      readers := lock.readers - 1, readerBodies := lock.readerBodies.erase task } with ⟨hWait, hRun⟩
    refine ⟨?_, fun other => ?_⟩
    · simp only [stepsLeft, endRead, hWait.length_eq, hRun]
      simp [(hErase hIn).1]
      omega
    · rw [endRead, hRun, (hWait.append_right _).count_eq]
      simp [(hErase hIn).2 other]
      omega
  | endWrite task =>
    rcases ite_none_right_eq_some.mp hStep with ⟨hIn, ⟨⟩⟩
    rcases tasks_checkQueues { lock with
      writerActive := false, writerBodies := lock.writerBodies.erase task } with ⟨hWait, hRun⟩
    refine ⟨?_, fun other => ?_⟩
    · simp only [stepsLeft, endWrite, hWait.length_eq, hRun]
      simp [(hErase hIn).1]
      omega
    · rw [endWrite, hRun, (hWait.append_right _).count_eq]
      simp [(hErase hIn).2 other]
      omega

theorem tasks_run (events : List LockEvent) (hRun : events.foldlM step lock = some last)
  (hMoves : ∀ event ∈ events, event.isCall = false) :
  lock.stepsLeft = last.stepsLeft + events.length ∧ ∀ task,
    (lock.waiting ++ lock.running).count task =
      (last.waiting ++ last.running).count task + (events.map (·.ends task)).sum := by
  induction events generalizing lock with
  | nil =>
    cases hRun
    exact ⟨rfl, fun _ => rfl⟩
  | cons event events ih =>
    rw [foldlM_cons] at hRun
    rcases bind_eq_some_iff.mp hRun with ⟨next, hStep, hRest⟩
    rcases forall_mem_cons.mp hMoves with ⟨hFirst, hLater⟩
    rcases tasks_step hStep hFirst with ⟨hLeft, hTasks⟩
    rcases ih hRest hLater with ⟨hLefts, hCounts⟩
    refine ⟨?_, fun task => ?_⟩
    · rw [hLeft, hLefts, length_cons, Nat.add_assoc]
    · rw [hTasks, hCounts, map_cons, sum_cons]
      omega

/- When no task can move, none is there. -/
theorem Counted.idle (hCounted : lock.Counted)
  (hStuck : ∀ event, event.isCall = false → lock.step event = none) :
  lock.waiting ++ lock.running = [] := by
  have hNone : ∀ {tasks : List Nat}, (∀ task, task ∉ tasks) → tasks = [] :=
    eq_nil_iff_forall_not_mem.mpr
  have hRead := hNone fun task hIn => by
    cases (if_pos hIn).symm.trans (hStuck (.endRead task) rfl)
  have hWrite := hNone fun task hIn => by
    cases (if_pos hIn).symm.trans (hStuck (.endWrite task) rfl)
  have hReaders := hNone fun task hIn => by
    cases (if_pos hIn).symm.trans (hStuck (.resumeReader task) rfl)
  have hWriters := hNone fun task hIn => by
    cases (if_pos hIn).symm.trans (hStuck (.resumeWriter task) rfl)
  rcases hCounted.drained hRead hWrite hReaders hWriters with ⟨hQueued, hQueue⟩
  simp [hRead, hWrite, hReaders, hWriters, hQueued, hQueue]

/-
  Tasks that stop coming are all served: after every run the tasks that wait or run take just the
  steps that are left to them, each ends as often as it came, and the lock is not stuck before.
-/
theorem all_served (maxQueued : Int) (events later : List LockEvent)
  (hCreate : create maxQueued = .ok lock) (hRun : events.foldlM step lock = some middle)
  (hLater : later.foldlM step middle = some last)
  (hMoves : ∀ event ∈ later, event.isCall = false) :
  later.length ≤ middle.stepsLeft ∧
    ((∀ event, event.isCall = false → last.step event = none) →
      later.length = middle.stepsLeft ∧ last.readers = 0 ∧ last.writerActive = false ∧
        ∀ task, (later.map (·.ends task)).sum = (middle.waiting ++ middle.running).count task) := by
  have hCounted : last.Counted :=
    EventRun.inv_of_run (fun _ _ _ hBefore hStep => hBefore.step hStep) later
      (EventRun.inv_of_run (fun _ _ _ hBefore hStep => hBefore.step hStep) events
        (create_handed hCreate).toCounted hRun) hLater
  rcases tasks_run later hLater hMoves with ⟨hLeft, hTasks⟩
  refine ⟨by omega, fun hStuck => ?_⟩
  have hIdle := hCounted.idle hStuck
  rcases append_eq_nil_iff.mp hIdle with ⟨hWait, hRunning⟩
  rcases append_eq_nil_iff.mp hRunning with ⟨hRead, hWrite⟩
  refine ⟨by rw [hLeft, stepsLeft, hWait, hRunning]; simp, by rw [hCounted.readers, hRead]; rfl,
    Bool.eq_false_iff.mpr fun hActive => hCounted.active hActive hWrite, fun task => ?_⟩
  rw [hTasks, hIdle, count_nil, Nat.zero_add]

theorem all_served_two_writers :
  3 = stepsLeft ⟨4096, 0, true, [], [1], [], [], [], [0]⟩ ∧
    ∀ task, ([LockEvent.endWrite 0, .resumeWriter 1, .endWrite 1].map (·.ends task)).sum =
      [1, 0].count task := by
  have hRun : [LockEvent.withWriteLock 0, .withWriteLock 1].foldlM step
      ⟨4096, 0, false, [], [], [], [], [], []⟩ =
    some ⟨4096, 0, true, [], [1], [], [], [], [0]⟩ := rfl
  have hStuck : ∀ event, event.isCall = false →
      step ⟨4096, 0, false, [], [], [], [], [], []⟩ event = none := by
    intro event hMoves
    cases event <;> simp_all [step, LockEvent.isCall]
  have hServed := all_served 4096 _ [.endWrite 0, .resumeWriter 1, .endWrite 1] rfl hRun rfl
    (by simp [LockEvent.isCall])
  exact ⟨(hServed.2 hStuck).1, (hServed.2 hStuck).2.2.2⟩

end SingleWriterMultiReaderLock

end TsStack.Chaintracks
