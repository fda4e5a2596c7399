import Mathlib.Data.List.Perm.Basic

/-
  Tasks taken in order by a bounded number of workers.

  A worker begins the next waiting task when it is free, and
  tasks settle in any order.  The pool keeps the tasks begun
  and the results, so that a run can be described by them.
-/

-- Pools

structure TaskPool (α ρ : Type) where
  waiting : List α
  running : List α := []
  begun : List α := []
  settled : List (α × ρ) := []

open List

namespace TaskPool

variable {α ρ : Type} {pool next : TaskPool α ρ} {items : List α} {item : α} {result : ρ}
variable {workers : Nat}

structure Begins (workers : Nat) (pool : TaskPool α ρ) (item : α) (next : TaskPool α ρ) : Prop where
  free : pool.running.length < workers
  waiting : pool.waiting = item :: next.waiting
  running : next.running = pool.running ++ [item]
  begun : next.begun = pool.begun ++ [item]
  settled : next.settled = pool.settled

structure Settles (pool : TaskPool α ρ) (item : α) (result : ρ) (next : TaskPool α ρ) : Prop where
  waiting : next.waiting = pool.waiting
  running : pool.running.Perm (item :: next.running)
  begun : next.begun = pool.begun
  settled : next.settled = pool.settled ++ [(item, result)]

def Over (pool : TaskPool α ρ) : Prop :=
  pool.waiting = [] ∧ pool.running = []

structure Serves (items : List α) (pool : TaskPool α ρ) : Prop where
  order : pool.begun ++ pool.waiting = items
  perm : (pool.running ++ pool.settled.map Prod.fst).Perm pool.begun

/- A bound on the steps left. -/
def weight (pool : TaskPool α ρ) : Nat :=
  2 * pool.waiting.length + pool.running.length

-- Steps

theorem serves_start (items : List α) : Serves items ({ waiting := items } : TaskPool α ρ) where
  order := rfl
  perm := .refl _

theorem Begins.serves (hBegins : pool.Begins workers item next) (hServes : pool.Serves items) :
  next.Serves items where
  order := by
    rw [hBegins.begun, append_assoc, singleton_append, ← hBegins.waiting]
    exact hServes.order
  perm := by
    rw [hBegins.running, hBegins.begun, hBegins.settled, append_assoc]
    have hMoved : (pool.running ++ ([item] ++ pool.settled.map Prod.fst)).Perm
          (pool.running ++ (pool.settled.map Prod.fst ++ [item])) :=
      perm_append_comm.append_left _
    apply hMoved.trans
    rw [← append_assoc]
    exact hServes.perm.append_right [item]

theorem Settles.serves (hSettles : pool.Settles item result next) (hServes : pool.Serves items) :
  next.Serves items where
  order := by
    rw [hSettles.begun, hSettles.waiting]
    exact hServes.order
  perm := by
    rw [hSettles.begun, hSettles.settled, map_append]
    apply List.Perm.trans _ hServes.perm
    have hMoved : (next.running ++ (pool.settled.map Prod.fst ++ [item])).Perm
          (item :: next.running ++ pool.settled.map Prod.fst) := by
      rw [← append_assoc]
      exact perm_append_singleton _ _
    exact hMoved.trans (hSettles.running.symm.append_right _)

theorem Serves.settled_perm (hServes : pool.Serves items) (hOver : pool.Over) :
  (pool.settled.map Prod.fst).Perm items := by
  have hOrder := hServes.order
  have hPerm := hServes.perm
  rw [hOver.1, append_nil] at hOrder
  rw [hOver.2, nil_append, hOrder] at hPerm
  exact hPerm

theorem exists_next (hWorkers : 0 < workers) (hLeft : ¬pool.Over) (result : ρ) :
  (∃ item next, pool.Begins workers item next) ∨ ∃ item next, pool.Settles item result next := by
  cases hRunning : pool.running with
  | cons item running =>
    right
    exact ⟨item,
      { pool with
        running := running
        settled := pool.settled ++ [(item, result)] },
      { waiting := rfl
        running := .of_eq hRunning
        begun := rfl
        settled := rfl }⟩
  | nil =>
    cases hWaiting : pool.waiting with
    | nil => exact absurd ⟨hWaiting, hRunning⟩ hLeft
    | cons item waiting =>
      left
      exact ⟨item,
        { pool with
          waiting := waiting
          running := pool.running ++ [item]
          begun := pool.begun ++ [item] },
        { free := by simpa [hRunning] using hWorkers
          waiting := hWaiting
          running := rfl
          begun := rfl
          settled := rfl }⟩

theorem Serves.mem_of_begun (hServes : pool.Serves items) (hBegun : item ∈ pool.begun) :
  item ∈ items := by
  rw [← hServes.order]
  exact mem_append_left _ hBegun

theorem Serves.begun_of_settled
  (hServes : pool.Serves items) (hSettle : (item, result) ∈ pool.settled) : item ∈ pool.begun := by
  apply hServes.perm.mem_iff.mp
  exact mem_append_right _ (List.mem_map_of_mem (f := Prod.fst) hSettle)

theorem Serves.weight_le (hServes : pool.Serves items) : pool.weight ≤ 2 * items.length := by
  have hOrder := congrArg length hServes.order
  have hPerm := hServes.perm.length_eq
  rw [length_append] at hOrder hPerm
  unfold weight
  omega

theorem Begins.weight_lt (hBegins : pool.Begins workers item next) : next.weight < pool.weight := by
  unfold weight
  rw [hBegins.waiting, hBegins.running, length_cons, length_append, length_singleton]
  omega

theorem Settles.weight_lt (hSettles : pool.Settles item result next) :
  next.weight < pool.weight := by
  have hLen := hSettles.running.length_eq
  rw [length_cons] at hLen
  unfold weight
  rw [hSettles.waiting]
  omega

end TaskPool
