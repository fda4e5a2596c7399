import Mathlib.Data.List.Pairwise

/-
  Tasks that share a store and take their steps in any order.

  Each task has a local assertion, which its own steps keep
  and which the steps of the tasks apart from it keep.  What
  is wrong in the store is a debt, and each debt is owed by
  a task that will settle it.
-/

-- Steps

open List

namespace Interleaving

variable {σ τ δ : Type}

structure Pool (σ τ : Type) where
  store : σ
  tasks : List τ

inductive Step (act : σ → τ → σ × τ) : Pool σ τ → Pool σ τ → Prop
| task
    (store : σ) (before : List τ) (task : τ) (after : List τ) :
    Step act
      { store := store
        tasks := before ++ task :: after }
      { store := (act store task).1
        tasks := before ++ (act store task).2 :: after }

def stepAt (act : σ → τ → σ × τ) (pool : Pool σ τ) (index : Nat) : Pool σ τ :=
  match pool.tasks[index]? with
  | none => pool
  | some task =>
    { store := (act pool.store task).1
      tasks := pool.tasks.set index (act pool.store task).2 }

def schedule (act : σ → τ → σ × τ) (indexes : List Nat) (pool : Pool σ τ) : Pool σ τ :=
  indexes.foldl (stepAt act) pool

variable {act : σ → τ → σ × τ} {pool next : Pool σ τ}

theorem run_stepAt (index : Nat) :
  Relation.ReflTransGen (Step act) pool (stepAt act pool index) := by
  unfold stepAt
  cases hTask : pool.tasks[index]? with
  | none => exact .refl
  | some task =>
    rcases List.getElem?_eq_some_iff.mp hTask with ⟨hIdx, hGet⟩
    have hSplit : pool.tasks = pool.tasks.take index ++ task :: pool.tasks.drop (index + 1) := by
      rw [← hGet, getElem_cons_drop, take_append_drop]
    have hSet : pool.tasks.set index (act pool.store task).2 =
          pool.tasks.take index ++ (act pool.store task).2 :: pool.tasks.drop (index + 1) :=
      set_eq_take_append_cons_drop.trans (if_pos hIdx)
    simp only [hSet]
    apply Relation.ReflTransGen.single
    have hStep :=
      @Step.task _ _ act pool.store (pool.tasks.take index) task (pool.tasks.drop (index + 1))
    rw [← hSplit] at hStep
    exact hStep

theorem run_schedule (indexes : List Nat) :
  Relation.ReflTransGen (Step act) pool (schedule act indexes pool) := by
  induction indexes generalizing pool with
  | nil => exact .refl
  | cons index indexes ih => exact (run_stepAt index).trans ih

-- Assertions

structure Stable (act : σ → τ → σ × τ) (Inv : σ → Prop) (Local : σ → τ → Prop)
  (Apart : τ → τ → Prop) : Prop where
  inv : ∀ store task, Inv store → Local store task → Inv (act store task).1
  own : ∀ store task, Inv store → Local store task → Local (act store task).1 (act store task).2
  others : ∀ store task other, Inv store → Local store task →
      Local store other → Apart task other → Local (act store task).1 other
  apart : ∀ store task other, Apart task other → Apart (act store task).2 other
  symm : ∀ task other, Apart task other → Apart other task

structure Holds
  (Inv : σ → Prop) (Local : σ → τ → Prop) (Apart : τ → τ → Prop) (pool : Pool σ τ) : Prop where
  inv : Inv pool.store
  tasks : ∀ task ∈ pool.tasks, Local pool.store task
  apart : pool.tasks.Pairwise Apart

variable {Inv : σ → Prop} {Local : σ → τ → Prop} {Apart : τ → τ → Prop}

section

variable (hStable : Stable act Inv Local Apart) (hHold : Holds Inv Local Apart pool)

include hStable hHold

theorem Holds.step (hStep : Step act pool next) : Holds Inv Local Apart next := by
  cases hStep with
  | task store before task after =>
    rcases hHold with ⟨hInv, hTasks, hApart⟩
    rw [pairwise_append, pairwise_cons] at hApart
    rcases hApart with ⟨hPre, ⟨hTaskAfter, hAfter⟩, hAcross⟩
    have hTask : Local store task := hTasks task (by simp)
    constructor
    · exact hStable.inv store task hInv hTask
    · intro other hOther
      rcases mem_append.mp hOther with hIn | hIn
      · apply hStable.others store task other hInv hTask (hTasks other (by simp [hIn]))
        apply hStable.symm
        exact hAcross other hIn task mem_cons_self
      · rcases mem_cons.mp hIn with rfl | hLater
        · exact hStable.own store task hInv hTask
        · exact hStable.others store task other hInv hTask (hTasks other (by simp [hLater]))
            (hTaskAfter other hLater)
    · rw [pairwise_append, pairwise_cons]
      refine ⟨hPre, ⟨?_, hAfter⟩, ?_⟩
      · intro other hOther
        exact hStable.apart store task other (hTaskAfter other hOther)
      · intro other hOther third hThird
        rcases mem_cons.mp hThird with rfl | hLater
        · apply hStable.symm
          apply hStable.apart
          apply hStable.symm
          exact hAcross other hOther task mem_cons_self
        · exact hAcross other hOther third (mem_cons_of_mem _ hLater)

theorem Holds.run
  (hRun : Relation.ReflTransGen (Step act) pool next) : Holds Inv Local Apart next := by
  induction hRun with
  | refl => exact hHold
  | tail _ hStep ih => exact ih.step hStable hStep

end

-- Debts

structure Settles
  (act : σ → τ → σ × τ) (Inv : σ → Prop) (Local : σ → τ → Prop) (Debt : σ → δ → Prop)
  (Owes : τ → δ → Prop) : Prop where
  made : ∀ store task debt, Inv store → Local store task → Debt (act store task).1 debt →
        Debt store debt ∨ Owes (act store task).2 debt
  left : ∀ store task debt, Inv store → Local store task →
      Debt (act store task).1 debt → Owes task debt → Owes (act store task).2 debt

def Covered (Debt : σ → δ → Prop) (Owes : τ → δ → Prop) (pool : Pool σ τ) : Prop :=
  ∀ debt, Debt pool.store debt → ∃ task ∈ pool.tasks, Owes task debt

variable {Debt : σ → δ → Prop} {Owes : τ → δ → Prop}

theorem Covered.step
  (hSettles : Settles act Inv Local Debt Owes) (hHold : Holds Inv Local Apart pool)
  (hCovered : Covered Debt Owes pool) (hStep : Step act pool next) : Covered Debt Owes next := by
  cases hStep with
  | task store before task after =>
    intro debt hDebt
    have hInv := hHold.inv
    have hTask := hHold.tasks task (by simp)
    rcases hSettles.made store task debt hInv hTask hDebt with hOld | hOwes
    · rcases hCovered debt hOld with ⟨other, hOther, hOtherOwes⟩
      rcases mem_append.mp hOther with hIn | hIn
      · exact ⟨other, by simp [hIn], hOtherOwes⟩
      · rcases mem_cons.mp hIn with rfl | hLater
        · exact ⟨_, by simp, hSettles.left store other debt hInv hTask hDebt hOtherOwes⟩
        · exact ⟨other, by simp [hLater], hOtherOwes⟩
    · exact ⟨_, by simp, hOwes⟩

section

variable
    (hStable : Stable act Inv Local Apart)
    (hSettles : Settles act Inv Local Debt Owes)
    (hHold : Holds Inv Local Apart pool)
    (hCovered : Covered Debt Owes pool)
    (hRun : Relation.ReflTransGen (Step act) pool next)

include hStable hSettles hHold hCovered hRun

theorem Covered.run : Covered Debt Owes next := by
  induction hRun with
  | refl => exact hCovered
  | tail hRun hStep ih => exact ih.step hSettles (hHold.run hStable hRun) hStep

theorem no_debt
  (hOver : ∀ task ∈ next.tasks, ∀ debt, ¬Owes task debt) (debt : δ) : ¬Debt next.store debt := by
  intro hDebt
  rcases hCovered.run hStable hSettles hHold hRun debt hDebt with ⟨task, hTask, hOwes⟩
  exact hOver task hTask debt hOwes

end

end Interleaving
