import TsStack.Lib.OrderedMatching
import TsStack.Script.SpendOpsAccounting

/-
  What `OP_CHECKMULTISIG` computes: the signatures match
  keys in the order of the stack.
-/

-- Programs that Only Read

open List

namespace TsStack.Spend

open OrderedMatching

open StateProgram

def readContract : Contract SpendParams Spend where
  inv _ _ := True
  rel _ before after := after = before
  refl _ _ := rfl
  trans _ _ _ _ hFirst hSecond := hSecond.trans hFirst

variable {α β : Type} {params : SpendParams} {spend after : Spend} {Q : α → Prop}

theorem read_ok
  {program : SpendM α} {value : α} (hReads : StateProgram.Keeps readContract program Q)
  (hRun : program params spend = .ok value after) : after = spend ∧ Q value := by
  rcases hReads params spend trivial with ⟨⟨-, hSame⟩, hValue⟩
  rw [hRun] at hSame
  exact ⟨hSame, hValue _ _ hRun⟩

theorem bind_read_ok {program : SpendM α} {next : α → SpendM β} {result : β}
  (hReads : StateProgram.Keeps readContract program Q)
  (hRun : (program >>= next) params spend = .ok result after) :
  ∃ value, program params spend = .ok value spend ∧
    Q value ∧ next value params spend = .ok result after := by
  rcases bind_ok hRun with ⟨value, middle, hFirst, hNext⟩
  rcases read_ok hReads hFirst with ⟨hSame, hValue⟩
  subst hSame
  exact ⟨value, hFirst, hValue, hNext⟩

theorem popStack_ok {item : StackItem} (hRun : popStack params spend = .ok item after) :
  spend.stack = item :: after.stack ∧ after.arrays = spend.arrays := by
  cases hStack : spend.stack with
  | nil =>
    rw [popStack, removeStack_run_none _ (by simp [hStack])] at hRun
    cases hRun
  | cons top rest =>
    rw [popStack, removeStack_run_some _ (by
      rw [hStack]
      rfl)] at hRun
    cases hRun
    simp [hStack]

end TsStack.Spend
