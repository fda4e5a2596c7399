import Mathlib.Data.List.Basic
import Mathlib.Algebra.Group.Nat.Defs

/-
  Merkle trees over a list of leaves.

  Neighbours are paired, and the last node of an odd level
  is paired with itself.
-/

-- Levels and Root

namespace MerkleTree

variable {α : Type} (node : α → α → α)

def above : List α → List α
| [] => []
| [last] => [node last last]
| left :: right :: rest => node left right :: above rest

def levelAt (leaves : List α) : Nat → List α
| 0 => leaves
| height + 1 => above node (levelAt leaves height)

@[simp] theorem length_above (level : List α) :
  (above node level).length = (level.length + 1) / 2 := by
  induction level using above.induct with
  | case1 => simp [above]
  | case2 last => simp [above]
  | case3 left right rest ih =>
    simp only [above, List.length_cons, ih]
    omega

def root : List α → Option α
| [] => none
| [last] => some last
| left :: right :: rest => root (above node (left :: right :: rest))
termination_by level => level.length
decreasing_by
  simp only [length_above, List.length_cons]
  omega

variable {node}

/- A level of a non-empty tree, by its last position. -/
theorem length_levelAt {leaves : List α} (hLeaves : leaves ≠ []) (height : Nat) :
  (levelAt node leaves height).length = (leaves.length - 1) / 2 ^ height + 1 := by
  have hPos := List.length_pos_of_ne_nil hLeaves
  induction height with
  | zero =>
    simp only [levelAt, Nat.pow_zero, Nat.div_one]
    omega
  | succ height ih =>
    rw [levelAt, length_above, ih, Nat.pow_succ, ← Nat.div_div_eq_div_mul]
    omega

theorem getElem?_above (level : List α) (position : Nat) :
  (above node level)[position]? = (level[2 * position]?).map fun left =>
      node left ((level[2 * position + 1]?).getD left) := by
  induction level using above.induct generalizing position with
  | case1 => rfl
  | case2 last =>
    cases position with
    | zero => rfl
    | succ position => rfl
  | case3 left right rest ih =>
    cases position with
    | zero => rfl
    | succ position =>
      rw [above, List.getElem?_cons_succ, ih]
      rfl

variable
    {leaves : List α} {height : Nat}

theorem climb
  {position : Nat} {own : α} (hOwn : (levelAt node leaves height)[position]? = some own) :
  (levelAt node leaves (height + 1))[position / 2]? = some (if position % 2 = 0 then
      node own (((levelAt node leaves height)[position + 1]?).getD own)
    else node (((levelAt node leaves height)[position - 1]?).getD own) own) := by
  rw [levelAt, getElem?_above]
  by_cases hEven : position % 2 = 0
  · have hLeft : 2 * (position / 2) = position := by omega
    rw [if_pos hEven, hLeft, hOwn]
    rfl
  · have hLeft : 2 * (position / 2) = position - 1 := by omega
    have hRight : position - 1 + 1 = position := by omega
    have hBound := (List.getElem?_eq_some_iff.mp hOwn).choose
    rw [if_neg hEven, hLeft, hRight, hOwn, List.getElem?_eq_getElem (by omega)]
    rfl

theorem forall_mem_levelAt
  {P : α → Prop} (hLeaves : ∀ leaf ∈ leaves, P leaf) (hNode : ∀ left right, P (node left right))
  (height : Nat) : ∀ x ∈ levelAt node leaves height, P x := by
  cases height with
  | zero => exact hLeaves
  | succ height =>
    intro x hx
    rcases List.mem_iff_getElem?.mp hx with ⟨position, hGet⟩
    rw [levelAt, getElem?_above] at hGet
    rcases Option.map_eq_some_iff.mp hGet with ⟨left, _, rfl⟩
    exact hNode _ _

section

variable (hLevels : ∀ lower < height, 2 ≤ (levelAt node leaves lower).length)

include hLevels

theorem root_eq_root_levelAt : root node leaves = root node (levelAt node leaves height) := by
  induction height with
  | zero => rfl
  | succ height ih =>
    rw [ih fun lower hLower => hLevels lower (Nat.lt_succ_of_lt hLower)]
    have hTwo := hLevels height (Nat.lt_succ_self height)
    rw [levelAt]
    match hLevel : levelAt node leaves height with
    | [] => simp [hLevel] at hTwo
    | [last] => simp [hLevel] at hTwo
    | left :: right :: rest => rw [root]

theorem root_of_singleton {top : α}
  (hTop : levelAt node leaves height = [top]) : root node leaves = some top := by
  rw [root_eq_root_levelAt hLevels, hTop, root]

end

end MerkleTree
