import Mathlib.Data.List.GetD
import Mathlib.Data.List.Nodup
import Mathlib.Data.List.Range

/-
  A pool of the numbers below a bound in which numbers change
  places, kept whole or by its changed places only.
-/

-- Whole Pools

open List

namespace SwapPool

open Function

/- The items of two places change places. -/
def swapItems (pool : List Nat) (i j : Nat) : List Nat :=
  (pool.set i (pool.getD j 0)).set j (pool.getD i 0)

def swaps (places : List (Nat × Nat)) (pool : List Nat) : List Nat :=
  places.foldl (fun pool place => swapItems pool place.1 place.2) pool

@[simp] theorem length_swapItems (pool : List Nat) (i j : Nat) :
  (swapItems pool i j).length = pool.length := by
  unfold swapItems
  rw [length_set, length_set]

variable
    {pool : List Nat} {i j : Nat}

theorem swapItems_perm (hI : i < pool.length) (hJ : j < pool.length) :
  (swapItems pool i j).Perm pool := by
  unfold swapItems
  rw [getD_eq_getElem _ _ hI, getD_eq_getElem _ _ hJ]
  exact set_set_perm hI hJ

theorem swaps_perm {places : List (Nat × Nat)}
  (hPlaces : ∀ place ∈ places, place.1 < pool.length ∧ place.2 < pool.length) :
  (swaps places pool).Perm pool := by
  unfold swaps
  induction places generalizing pool with
  | nil => exact List.Perm.refl pool
  | cons place places ih =>
    have hFst := hPlaces place mem_cons_self
    have hSwap := swapItems_perm hFst.1 hFst.2
    rw [foldl_cons]
    refine (ih ?_).trans hSwap
    intro other hOther
    rw [length_swapItems]
    exact hPlaces other (mem_cons_of_mem _ hOther)

theorem length_swaps (places : List (Nat × Nat)) (pool : List Nat) :
  (swaps places pool).length = pool.length := by
  unfold swaps
  induction places generalizing pool with
  | nil => rfl
  | cons place places ih => rw [foldl_cons, ih, length_swapItems]

theorem getD_swapItems {place : Nat} (hJ : j < pool.length) (hPlace : place < pool.length) :
  (swapItems pool i j).getD place 0 =
    if place = j then pool.getD i 0
    else if place = i then pool.getD j 0
    else pool.getD place 0 := by
  unfold swapItems
  simp only [getD_eq_getElem?_getD, getElem?_set, length_set]
  by_cases hEqJ : place = j
  · rw [if_pos hEqJ.symm, if_pos hJ, if_pos hEqJ]
    rfl
  rw [if_neg (fun hEq => hEqJ hEq.symm), if_neg hEqJ]
  by_cases hEqI : place = i
  · have hI : i < pool.length := by omega
    rw [if_pos hEqI.symm, if_pos hI, if_pos hEqI]
    rfl
  · rw [if_neg (fun hEq => hEqI hEq.symm), if_neg hEqI]

-- Sparse Pools

/- The changed places: another place holds its own number. -/
abbrev Sparse :=
  Nat → Option Nat

namespace Sparse

def empty : Sparse :=
  fun _ => none

def get (pool : Sparse) (place : Nat) : Nat :=
  (pool place).getD place

def swap (pool : Sparse) (i j : Nat) : Sparse :=
  let atI := pool.get i
  Function.update (Function.update pool i (some (pool.get j))) j (some atI)

def swaps (places : List (Nat × Nat)) (pool : Sparse) : Sparse :=
  places.foldl (fun pool place => pool.swap place.1 place.2) pool

theorem get_swap (pool : Sparse) (i j place : Nat) : (pool.swap i j).get place =
    if place = j then pool.get i
    else if place = i then pool.get j
    else pool.get place := by
  by_cases hJ : place = j
  · subst hJ
    rw [if_pos rfl, swap, get, update_self]
    rfl
  rw [if_neg hJ]
  by_cases hI : place = i
  · subst hI
    rw [if_pos rfl, swap, get, update_of_ne hJ, update_self]
    rfl
  · rw [if_neg hI, swap, get, update_of_ne hJ, update_of_ne hI, get]

end Sparse

def Represents (sparse : Sparse) (pool : List Nat) : Prop :=
  ∀ place < pool.length, sparse.get place = pool.getD place 0

theorem represents_range (bound : Nat) : Represents Sparse.empty (range bound) := by
  intro place hPlace
  rw [getD_eq_getElem _ _ hPlace, getElem_range]
  rfl

variable {sparse : Sparse}

section

variable (hRepresents : Represents sparse pool)

include hRepresents

theorem Represents.swap (hI : i < pool.length) (hJ : j < pool.length) :
  Represents (sparse.swap i j) (swapItems pool i j) := by
  intro place hPlace
  rw [length_swapItems] at hPlace
  rw [Sparse.get_swap, getD_swapItems hJ hPlace, hRepresents i hI, hRepresents j hJ,
    hRepresents place hPlace]

theorem Represents.swaps {places : List (Nat × Nat)}
  (hPlaces : ∀ place ∈ places, place.1 < pool.length ∧ place.2 < pool.length) :
  Represents (sparse.swaps places) (SwapPool.swaps places pool) := by
  unfold Sparse.swaps SwapPool.swaps
  induction places generalizing sparse pool with
  | nil => exact hRepresents
  | cons place places ih =>
    have hFst := hPlaces place mem_cons_self
    rw [foldl_cons, foldl_cons]
    apply ih (hRepresents.swap hFst.1 hFst.2)
    intro other hOther
    rw [length_swapItems]
    exact hPlaces other (mem_cons_of_mem _ hOther)

/- The first places of both pools hold the same. -/
theorem map_get_eq_take {count : Nat} (hCount : count ≤ pool.length) :
  (range count).map sparse.get = pool.take count := by
  apply ext_getElem
  · rw [length_map, length_range, length_take]
    omega
  · intro place hLeft hRight
    rw [length_map, length_range] at hLeft
    have hPlace : place < pool.length := by omega
    rw [getElem_map, getElem_range, getElem_take, hRepresents place hPlace,
      getD_eq_getElem _ _ hPlace]

end

end SwapPool
