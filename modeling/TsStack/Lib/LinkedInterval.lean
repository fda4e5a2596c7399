import Mathlib.Tactic.SplitIfs

/-
  Items at consecutive heights, each linked to the one below.

  A slice of the interval can be replaced: what is written
  must be linked, and nothing above the slice may be left,
  since it would hang on an item that is gone.
-/

-- Linked Items

variable {α : Type}

def itemBelow (items : Nat → Option α) : Nat → Option α
| 0 => none
| height + 1 => items height

structure LinkedInterval (Links : Option α → α → Prop) (items : Nat → Option α) : Prop where
  contiguous : ∀ low middle high, low ≤ middle → middle ≤ high →
      (items low).isSome → (items high).isSome → (items middle).isSome
  linked : ∀ height item, items height = some item → Links (itemBelow items height) item

structure Splice
  (Links : Option α → α → Prop) (first stop : Nat) (before after : Nat → Option α) : Prop where
  written : ∀ height, first ≤ height → height < stop →
      ∃ item, after height = some item ∧ Links (itemBelow after height) item
  kept : ∀ height, ¬(first ≤ height ∧ height < stop) → after height = before height

variable {Links : Option α → α → Prop} {first stop : Nat} {before after : Nat → Option α}

theorem linkedInterval_empty : LinkedInterval Links (fun _ => (none : Option α)) where
  contiguous := fun _ _ _ _ _ hLow _ => by cases hLow
  linked := fun _ _ hItem => by cases hItem

theorem Splice.cases (hSplice : Splice Links first stop before after) {height : Nat}
  (hSome : (after height).isSome) : (before height).isSome ∨ (first ≤ height ∧ height < stop) := by
  by_cases hSlice : first ≤ height ∧ height < stop
  · exact .inr hSlice
  · rw [hSplice.kept height hSlice] at hSome
    exact .inl hSome

/-
  The interval stays linked when the slice meets it, and what is left above the slice begins where
  it ends and is linked to its last item.
-/
theorem LinkedInterval.splice
  (hLinked : LinkedInterval Links before) (hSplice : Splice Links first stop before after)
  (hMeets : ∀ height, (before height).isSome → ∃ near, (before near).isSome ∧ first ≤ near + 1)
  (hAbove :
    ∀ height, (before height).isSome → first < stop → stop ≤ height → (before stop).isSome)
  (hJoint : ∀ item, first < stop → before stop = some item → Links (itemBelow after stop) item) :
  LinkedInterval Links after := by
  constructor
  · intro low middle high hLow hHigh hLowSome hHighSome
    by_cases hSlice : first ≤ middle ∧ middle < stop
    · rcases hSplice.written middle hSlice.1 hSlice.2 with ⟨item, hItem, _⟩
      rw [hItem]
      rfl
    · rw [hSplice.kept middle hSlice]
      by_cases hBelow : middle < first
      · -- what is below the slice was there before
        have hLowOld : (before low).isSome := by
          rcases hSplice.cases hLowSome with hOld | hNew
          · exact hOld
          · omega
        rcases hMeets low hLowOld with ⟨near, hNear, hFst⟩
        exact hLinked.contiguous low middle near hLow (by omega) hLowOld hNear
      · have hHighOld : (before high).isSome := by
          rcases hSplice.cases hHighSome with hOld | hNew
          · exact hOld
          · omega
        rcases hSplice.cases hLowSome with hOld | hNew
        · exact hLinked.contiguous low middle high hLow hHigh hOld hHighOld
        · have hStop := hAbove high hHighOld (by omega) (by omega)
          exact hLinked.contiguous stop middle high (by omega) hHigh hStop hHighOld
  · intro height item hItem
    by_cases hSlice : first ≤ height ∧ height < stop
    · rcases hSplice.written height hSlice.1 hSlice.2 with ⟨other, hOther, hLinks⟩
      rw [hItem] at hOther
      cases hOther
      exact hLinks
    · have hOld := hItem
      rw [hSplice.kept height hSlice] at hOld
      by_cases hStop : height = stop ∧ first < stop
      · rcases hStop with ⟨rfl, hFst⟩
        exact hJoint item hFst hOld
      · have hSame : itemBelow after height = itemBelow before height := by
          cases height with
          | zero => rfl
          | succ below =>
            apply hSplice.kept below
            omega
        rw [hSame]
        exact hLinked.linked height item hOld
