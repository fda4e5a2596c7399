import Mathlib.Data.List.Perm.Basic

/-
  Blocks mixed by an operation that takes them out again.
-/

-- Mixes of Blocks

/- Mixing in any order, and a second time to take out. -/
structure MixLaws {V : Type} (mix : V → V → V) : Prop where
  right_comm : ∀ value left right, mix (mix value left) right = mix (mix value right) left
  cancel : ∀ value block, mix (mix value block) block = value

def mixed {V ι : Type} (mix : V → V → V) (block : ι → V) (indices : List ι) (start : V) : V :=
  indices.foldl (fun value index => mix value (block index)) start

section

variable {V ι : Type} {mix : V → V → V} {block : ι → V}

theorem mixed_cons (index : ι) (indices : List ι) (start : V) :
  mixed mix block (index :: indices) start = mixed mix block indices (mix start (block index)) :=
  rfl

theorem mixed_append (left right : List ι) (start : V) :
  mixed mix block (left ++ right) start = mixed mix block right (mixed mix block left start) :=
  List.foldl_append

section

variable (hLaws : MixLaws mix)

include hLaws

/- The order of the indices does not matter. -/
theorem mixed_perm {left right : List ι} (hPerm : left.Perm right) (start : V) :
  mixed mix block left start = mixed mix block right start := by
  unfold mixed
  apply hPerm.foldl_eq'
  intro first _ second _ value
  exact hLaws.right_comm value (block first) (block second)

theorem mix_mixed (indices : List ι) (start value : V) :
  mix (mixed mix block indices start) value = mixed mix block indices (mix start value) := by
  induction indices generalizing start with
  | nil => rfl
  | cons index indices ih =>
    rw [mixed_cons, mixed_cons, ih, hLaws.right_comm start (block index) value]

theorem mixed_mixed (indices : List ι) (start : V) :
  mixed mix block indices (mixed mix block indices start) =
    start := by
  induction indices generalizing start with
  | nil => rfl
  | cons index indices ih =>
    rw [mixed_cons, mixed_cons, mix_mixed hLaws, hLaws.cancel]
    exact ih start

theorem mixed_filter (known : ι → Bool) (indices : List ι) (start : V) :
  mixed mix block (indices.filter known) (mixed mix block indices start) =
    mixed mix block (indices.filter fun index => !known index) start := by
  have hPerm : (indices.filter known ++ indices.filter fun index => !known index).Perm
          indices :=
    List.filter_append_perm known indices
  have hSplit := hPerm.symm.trans List.perm_append_comm
  rw [mixed_perm hLaws hSplit start, mixed_append, mixed_mixed hLaws]

end

end
