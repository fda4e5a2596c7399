import Mathlib.Data.List.Nodup

/-
  Paths of a relation with the nodes they leave.

  A path from `a` to `b` lists `a` and every node after it
  up to, but without, `b`.  Where each step lowers a measure
  by one, a path has one node for each value of the measure.
-/

-- Paths

/- `R` leads from the start through the nodes to the end. -/
inductive RelationPath {α : Type} (R : α → α → Prop) : α → List α → α → Prop where
| stop (a : α) : RelationPath R a [] a
| step
    {a p b : α} {nodes : List α} (hStep : R a p) (hPath : RelationPath R p nodes b) :
    RelationPath R a (a :: nodes) b

open List

namespace RelationPath

variable {α β : Type} {R : α → α → Prop} {a b c : α} {nodes more : List α}

theorem trans (hPath : RelationPath R a nodes b) (hMore : RelationPath R b more c) :
  RelationPath R a (nodes ++ more) c := by
  induction hPath with
  | stop => exact hMore
  | step hStep _ ih => exact .step hStep (ih hMore)

theorem eq_of_nil (hPath : RelationPath R a [] b) : a = b := by
  cases hPath
  rfl

/- A path that leaves a node leaves its start first. -/
theorem exists_cons (hPath : RelationPath R a nodes b) (hNodes : nodes ≠ []) :
  ∃ p tail, nodes = a :: tail ∧ R a p ∧ RelationPath R p tail b := by
  cases hPath with
  | stop => exact absurd rfl hNodes
  | step hStep hPath => exact ⟨_, _, rfl, hStep, hPath⟩

theorem start_mem (hPath : RelationPath R a nodes b) : a ∈ nodes ++ [b] := by
  cases hPath with
  | stop => simp
  | step => simp

section

variable (hPath : RelationPath R a nodes c)

include hPath

theorem split (hMem : b ∈ nodes ++ [c]) : ∃ before after, nodes = before ++ after ∧
      RelationPath R a before b ∧ RelationPath R b after c := by
  induction hPath with
  | stop a =>
    have hEq : b = a := by simpa using hMem
    subst hEq
    exact ⟨[], [], rfl, .stop b, .stop b⟩
  | @step a p c nodes hStep hPath ih =>
    rcases mem_cons.mp hMem with rfl | hTail
    · exact ⟨[], b :: nodes, rfl, .stop b, .step hStep hPath⟩
    · rcases ih hTail with ⟨before, after, rfl, hPre, hAfter⟩
      exact ⟨a :: before, after, rfl, .step hStep hPre, hAfter⟩

/- Each node left leads to a node of the path. -/
theorem exists_next (hMem : b ∈ nodes) : ∃ next ∈ nodes ++ [c], R b next := by
  induction hPath with
  | stop => cases hMem
  | @step a p c nodes hStep hPath ih =>
    rcases mem_cons.mp hMem with rfl | hTail
    · exact ⟨p, mem_cons_of_mem _ hPath.start_mem, hStep⟩
    · rcases ih hTail with ⟨next, hNext, hR⟩
      exact ⟨next, mem_cons_of_mem _ hNext, hR⟩

/- Each node but the start is reached from a node. -/
theorem exists_previous (hMem : b ∈ nodes ++ [c]) (hStart : b ≠ a) :
  ∃ previous ∈ nodes, R previous b := by
  induction hPath with
  | stop a =>
    have hEq : b = a := by simpa using hMem
    exact absurd hEq hStart
  | @step a p c nodes hStep hPath ih =>
    have hTail : b ∈ nodes ++ [c] := by
      rcases mem_cons.mp hMem with rfl | hTail
      · exact absurd rfl hStart
      · exact hTail
    by_cases hNext : b = p
    · subst hNext
      exact ⟨a, mem_cons_self, hStep⟩
    · rcases ih hTail hNext with ⟨previous, hPrev, hR⟩
      exact ⟨previous, mem_cons_of_mem _ hPrev, hR⟩

end

theorem map {S : β → β → Prop} (f : α → β) (hPath : RelationPath R a nodes b)
  (hStep : ∀ child ∈ nodes, ∀ parent, R child parent → S (f child) (f parent)) :
  RelationPath S (f a) (nodes.map f) (f b) := by
  induction hPath with
  | stop => exact .stop _
  | @step a p b nodes hR hPath ih =>
    have hTail := ih fun child hMem => hStep child (mem_cons_of_mem _ hMem)
    exact .step (hStep a mem_cons_self p hR) hTail

-- Measures

variable {α : Type} {R : α → α → Prop} {a b c : α} {nodes : List α} {measure : α → Nat}

section

variable (hLower : ∀ child parent, R child parent → measure child = measure parent + 1)

include hLower

theorem measure_eq (hPath : RelationPath R a nodes b) : measure a = measure b + nodes.length := by
  induction hPath with
  | stop => rfl
  | step hStep _ ih =>
    rw [hLower _ _ hStep, ih, length_cons]
    omega

/- Every node lies between the end and the start. -/
theorem measure_bounds (hPath : RelationPath R a nodes c) (hMem : b ∈ nodes ++ [c]) :
  measure c ≤ measure b ∧ measure b ≤ measure a := by
  rcases hPath.split hMem with ⟨before, after, _, hPre, hAfter⟩
  have hLeft := hPre.measure_eq hLower
  have hRight := hAfter.measure_eq hLower
  omega

/- A node that is left lies above the end. -/
theorem measure_lt
  (hPath : RelationPath R a nodes c) (hMem : b ∈ nodes) : measure c < measure b := by
  rcases hPath.exists_next hMem with ⟨next, hNext, hR⟩
  have hBounds := hPath.measure_bounds hLower hNext
  have hStep := hLower _ _ hR
  omega

theorem exists_measure (hPath : RelationPath R a nodes c) {value : Nat} (hLow : measure c ≤ value)
  (hHigh : value ≤ measure a) : ∃ node ∈ nodes ++ [c], measure node = value := by
  induction hPath with
  | stop a => exact ⟨a, by simp, by omega⟩
  | @step a p c nodes hStep _ ih =>
    by_cases hTop : value = measure a
    · exact ⟨a, by simp, hTop.symm⟩
    · have hParent := hLower _ _ hStep
      rcases ih hLow (by omega) with ⟨node, hNode, hEq⟩
      exact ⟨node, mem_cons_of_mem _ hNode, hEq⟩

theorem pairwise_measure (hPath : RelationPath R a nodes c) :
  (nodes ++ [c]).Pairwise (fun earlier later => measure later < measure earlier) := by
  induction hPath with
  | stop => simp
  | @step a p c nodes hStep hPath ih =>
    rw [cons_append, pairwise_cons]
    constructor
    · intro node hNode
      have hBounds := hPath.measure_bounds hLower hNode
      have hParent := hLower _ _ hStep
      omega
    · exact ih

/- No node is passed twice. -/
theorem nodup (hPath : RelationPath R a nodes c) : (nodes ++ [c]).Nodup := by
  apply (hPath.pairwise_measure hLower).imp
  intro earlier later hLt hEq
  rw [hEq] at hLt
  exact Nat.lt_irrefl _ hLt

theorem eq_of_measure_eq
  (hPath : RelationPath R a nodes c) {left right : α} (hLeft : left ∈ nodes ++ [c])
  (hRight : right ∈ nodes ++ [c]) (hEq : measure left = measure right) : left = right := by
  rcases hPath.split hLeft with ⟨before, after, rfl, hPre, hAfter⟩
  rw [append_assoc] at hRight
  rcases mem_append.mp hRight with hIn | hIn
  · have hLt := hPre.measure_lt hLower hIn
    omega
  · cases hAfter with
    | stop => exact (mem_singleton.mp hIn).symm
    | step hStep hRest =>
      rcases mem_cons.mp hIn with rfl | hTail
      · rfl
      · have hBounds := hRest.measure_bounds hLower hTail
        have hParent := hLower _ _ hStep
        omega

theorem measure_getElem_reverse (hPath : RelationPath R a nodes c) {index : Nat} {node : α}
  (hAt : (nodes ++ [c]).reverse[index]? = some node) : measure node = measure c + index := by
  induction hPath with
  | stop a =>
    rcases List.getElem?_eq_some_iff.mp hAt with ⟨hLt, hEq⟩
    have hZero : index = 0 := by simpa using hLt
    subst hZero
    rw [← hEq]
    rfl
  | @step a p c nodes hStep hPath ih =>
    rw [cons_append, reverse_cons] at hAt
    by_cases hLt : index < (nodes ++ [c]).reverse.length
    · rw [getElem?_append_left hLt] at hAt
      exact ih hAt
    · rw [getElem?_append_right (by omega)] at hAt
      rcases List.getElem?_eq_some_iff.mp hAt with ⟨hRest, hEq⟩
      simp only [length_singleton] at hRest
      have hTop := (step hStep hPath).measure_eq hLower
      simp only [length_reverse, length_append, length_singleton] at hLt hRest
      rw [getElem_singleton] at hEq
      rw [← hEq, hTop, length_cons]
      omega

end

end RelationPath
