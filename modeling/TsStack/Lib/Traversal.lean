import Mathlib.Data.List.Forall2

/-
  Mapping a function that may fail over a list.

  Key theorems include:
    * `Traversal.exists_left`
-/

-- Results of a Traversal

open List

namespace Traversal

variable {ε α β : Type}

theorem mapM_cons_eq_ok_iff {f : α → Except ε β} {x : α} {xs : List α} {ys : List β} :
  (x :: xs).mapM f = .ok ys ↔ ∃ y rest, f x = .ok y ∧ xs.mapM f = .ok rest ∧ ys = y :: rest := by
  rw [mapM_cons]
  cases hFst : f x with
  | error e =>
    constructor
    · intro hRun
      cases hRun
    · rintro ⟨y, rest, hY, -⟩
      cases hY
  | ok y =>
    cases hRest : xs.mapM f with
    | error e =>
      constructor
      · intro hRun
        cases hRun
      · rintro ⟨z, rest, -, hTail, -⟩
        cases hTail
    | ok rest =>
      constructor
      · intro hRun
        cases hRun
        exact ⟨y, rest, rfl, rfl, rfl⟩
      · rintro ⟨z, tail, hZ, hTail, rfl⟩
        cases hZ
        cases hTail
        rfl

/- A traversal succeeds when every call does. -/
theorem mapM_eq_ok_iff {f : α → Except ε β} {xs : List α} {ys : List β} :
  xs.mapM f = .ok ys ↔ List.Forall₂ (fun x y => f x = .ok y) xs ys := by
  induction xs generalizing ys with
  | nil =>
    rw [forall₂_nil_left_iff]
    constructor
    · intro hRun
      cases hRun
      rfl
    · rintro rfl
      rfl
  | cons x xs ih =>
    rw [mapM_cons_eq_ok_iff, forall₂_cons_left_iff]
    constructor
    · rintro ⟨y, rest, hY, hRest, rfl⟩
      exact ⟨y, rest, hY, ih.mp hRest, rfl⟩
    · rintro ⟨y, rest, hY, hRest, rfl⟩
      exact ⟨y, rest, hY, ih.mpr hRest, rfl⟩

variable {α β : Type} {R : α → β → Prop} {xs : List α} {ys : List β}

section

variable (hAll : List.Forall₂ R xs ys)

include hAll

theorem exists_right {x : α} (hMem : x ∈ xs) : ∃ y ∈ ys, R x y := by
  induction hAll with
  | nil => cases hMem
  | @cons first y xs ys hFst _ ih =>
    rcases mem_cons.mp hMem with rfl | hRest
    · exact ⟨y, mem_cons_self, hFst⟩
    · rcases ih hRest with ⟨z, hZ, hRelated⟩
      exact ⟨z, mem_cons_of_mem _ hZ, hRelated⟩

/- Related members may be known to be on the left. -/
theorem imp_of_mem {S : α → β → Prop} (hImp : ∀ x ∈ xs, ∀ y, R x y → S x y) :
  List.Forall₂ S xs ys := by
  induction hAll with
  | nil => exact .nil
  | cons hFst _ ih =>
    rcases forall_mem_cons.mp hImp with ⟨hHead, hTail⟩
    exact .cons (hHead _ hFst) (ih hTail)

theorem exists_left {y : β} (hMem : y ∈ ys) : ∃ x ∈ xs, R x y :=
  exists_right hAll.flip hMem

end

end Traversal
