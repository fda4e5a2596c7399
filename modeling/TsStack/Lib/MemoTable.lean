import Mathlib.Data.List.Basic

/-
  Tables of remembered results.
-/

-- Tables

/- A map from keys to values, latest entry first. -/
abbrev MemoTable (κ ν : Type) :=
  List (κ × ν)

namespace MemoTable

variable {κ ν : Type} [DecidableEq κ]

def get? (table : MemoTable κ ν) (key : κ) : Option ν :=
  (table.find? (fun entry => entry.1 = key)).map Prod.snd

def set (table : MemoTable κ ν) (key : κ) (value : ν) : MemoTable κ ν :=
  (key, value) :: table

@[simp] theorem get?_nil (key : κ) : get? ([] : MemoTable κ ν) key = none := rfl

variable (table : MemoTable κ ν)

theorem get?_set (key other : κ) (value : ν) : (table.set key value).get? other =
    if key = other then some value
    else table.get? other := by
  unfold get? set
  by_cases hKey : key = other
  · simp [hKey]
  · simp [hKey]

@[simp] theorem get?_set_self (key : κ) (value : ν) :
  (table.set key value).get? key = some value := by
  simp [get?_set]

theorem get?_set_of_ne {key other : κ} (value : ν) (hKey : key ≠ other) :
  (table.set key value).get? other = table.get? other := by
  simp [get?_set, hKey]

variable {κ ν : Type} [DecidableEq κ]

def Sound (table : MemoTable κ ν) (R : κ → ν → Prop) : Prop :=
  ∀ key value, table.get? key = some value → R key value

theorem sound_nil (R : κ → ν → Prop) : Sound ([] : MemoTable κ ν) R := by
  intro key value hGet
  cases hGet

theorem Sound.set
  {table : MemoTable κ ν} {R : κ → ν → Prop} {key : κ} {value : ν} (hTable : table.Sound R)
  (hValue : R key value) : (table.set key value).Sound R := by
  intro other remembered hGet
  rw [get?_set] at hGet
  split_ifs at hGet with hKey
  · cases hGet
    exact hKey ▸ hValue
  · exact hTable other remembered hGet

end MemoTable
