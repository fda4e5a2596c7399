import Mathlib.Algebra.BigOperators.Group.List.Basic
import Mathlib.Algebra.Order.Ring.Nat
import Mathlib.Data.List.Perm.Subperm

/-
  Ledgers of coins: what moves of coins do to the total of an
  asset.
-/

-- Totals

open List

namespace CoinLedger

variable {Place Asset : Type}

structure Coin (Place Asset : Type) where
  place : Place
  asset : Asset
  amount : Nat
deriving DecidableEq, Repr

variable [DecidableEq Asset]

def total (coins : List (Coin Place Asset)) (asset : Asset) : Nat :=
  ((coins.filter (·.asset = asset)).map (·.amount)).sum

theorem total_cons (coin : Coin Place Asset) (coins : List (Coin Place Asset)) (asset : Asset) :
  total (coin :: coins) asset =
    (if coin.asset = asset then coin.amount else 0) + total coins asset := by
  unfold total
  by_cases hAsset : coin.asset = asset
  · rw [filter_cons_of_pos (by simpa using hAsset), if_pos hAsset]
    rfl
  · rw [filter_cons_of_neg (by simpa using hAsset), if_neg hAsset, Nat.zero_add]

@[simp] theorem total_append (coins others : List (Coin Place Asset)) (asset : Asset) :
  total (coins ++ others) asset = total coins asset + total others asset := by
  unfold total
  rw [filter_append, map_append, sum_append]

variable {coins others : List (Coin Place Asset)}

theorem total_le_of_sublist (hSub : coins.Sublist others) (asset : Asset) :
  total coins asset ≤ total others asset := by
  induction hSub with
  | slnil => exact Nat.le_refl _
  | cons coin _ ih =>
    rw [total_cons]
    exact Nat.le_add_left_of_le ih
  | cons_cons coin _ ih =>
    rw [total_cons, total_cons]
    exact Nat.add_le_add_left ih _

theorem total_perm (hPerm : coins.Perm others) (asset : Asset) :
  total coins asset = total others asset :=
  ((hPerm.filter _).map _).sum_eq

theorem total_le_of_subperm (hSubperm : coins.Subperm others) (asset : Asset) :
  total coins asset ≤ total others asset := by
  rcases hSubperm with ⟨sorted, hPerm, hSub⟩
  rw [← total_perm hPerm]
  exact total_le_of_sublist hSub asset

theorem total_eq_zero {asset : Asset} (hNone : ∀ coin ∈ coins, coin.asset ≠ asset) :
  total coins asset = 0 := by
  induction coins with
  | nil => rfl
  | cons coin coins ih =>
    rw [total_cons, if_neg (hNone coin mem_cons_self), ih fun other hOther =>
      hNone other (mem_cons_of_mem coin hOther)]

theorem total_le_of_forall_eq (hNodup : coins.Nodup) {asset : Asset} {only : Coin Place Asset}
  (hOnly : ∀ coin ∈ coins, coin.asset = asset → coin = only) : total coins asset ≤ only.amount := by
  induction coins with
  | nil => exact Nat.zero_le _
  | cons coin coins ih =>
    rw [total_cons]
    rcases nodup_cons.mp hNodup with ⟨hNew, hRest⟩
    by_cases hAsset : coin.asset = asset
    · have hCoin := hOnly coin mem_cons_self hAsset
      have hNone : total coins asset = 0 := by
        apply total_eq_zero
        intro other hOther hSame
        have hEq := hOnly other (mem_cons_of_mem coin hOther) hSame
        rw [hCoin, ← hEq] at hNew
        exact hNew hOther
      rw [if_pos hAsset, hNone, hCoin]
      exact Nat.le_refl _
    · rw [if_neg hAsset, Nat.zero_add]
      exact ih hRest fun other hOther => hOnly other (mem_cons_of_mem coin hOther)

end CoinLedger
