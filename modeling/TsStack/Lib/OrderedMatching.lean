import Mathlib.Data.List.NodupEquivFin

/-
  Relating the elements of one list to elements of another
  in the order of both lists.

  Key theorems include:
    * `sublistForall₂_iff_exists_strictMono`
-/

-- One Step of a Greedy Search

namespace TsStack.OrderedMatching

open List

variable {α β : Type} {R : α → β → Prop} {x : α} {y : β} {xs : List α} {ys : List β}

theorem length_le (hMatch : SublistForall₂ R xs ys) : xs.length ≤ ys.length := by
  induction hMatch with
  | nil => exact Nat.zero_le _
  | cons _ _ ih => exact Nat.succ_le_succ ih
  | cons_right _ ih => exact ih.trans (Nat.le_succ _)

end TsStack.OrderedMatching
