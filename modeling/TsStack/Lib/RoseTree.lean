import Mathlib.Data.List.Perm.Basic
import Mathlib.Data.List.Nodup

/-
  Trees with any number of children.

  The order of a walk that leaves a node after its children
  is described by where two values stand in the tree.
-/

-- Trees

inductive RoseTree (α : Type) where
| node (value : α) (children : List (RoseTree α))
deriving Repr

open List

namespace RoseTree

variable {α : Type}

def value : RoseTree α → α
| .node value _ => value

def children : RoseTree α → List (RoseTree α)
| .node _ children => children

mutual

def values : RoseTree α → List α
| .node value children => value :: valuesAll children

def valuesAll : List (RoseTree α) → List α
| [] => []
| tree :: trees => tree.values ++ valuesAll trees

end

mutual

def postorder : RoseTree α → List α
| .node value children => postorderAll children ++ [value]

def postorderAll : List (RoseTree α) → List α
| [] => []
| tree :: trees => tree.postorder ++ postorderAll trees

end

mutual

def graft (selects : α → Bool) (child : RoseTree α) : RoseTree α → RoseTree α
| .node value children =>
  if selects value then .node value (graftAll selects child children ++ [child])
  else .node value (graftAll selects child children)

def graftAll (selects : α → Bool) (child : RoseTree α) :
  List (RoseTree α) → List (RoseTree α)
| [] => []
| tree :: trees => graft selects child tree :: graftAll selects child trees

end

variable (trees : List (RoseTree α))

theorem valuesAll_eq : valuesAll trees = trees.flatMap values := by
  induction trees with
  | nil => rfl
  | cons tree trees ih => rw [valuesAll, ih, flatMap_cons]

theorem postorderAll_eq : postorderAll trees = trees.flatMap postorder := by
  induction trees with
  | nil => rfl
  | cons tree trees ih => rw [postorderAll, ih, flatMap_cons]

theorem graftAll_eq (selects : α → Bool) (child : RoseTree α) (trees : List (RoseTree α)) :
  graftAll selects child trees = trees.map (graft selects child) := by
  induction trees with
  | nil => rfl
  | cons tree trees ih => rw [graftAll, ih, map_cons]

theorem induction {motive : RoseTree α → Prop}
  (node : ∀ value children, (∀ child ∈ children, motive child) → motive (.node value children)) :
  ∀ tree, motive tree
| .node value children => node value children fun child _ => induction node child

-- Values

variable {item : α}

theorem mem_values_node {value : α} {children : List (RoseTree α)} :
  item ∈ (RoseTree.node value children).values ↔
    item = value ∨ ∃ child ∈ children, item ∈ child.values := by
  rw [values, valuesAll_eq, mem_cons, mem_flatMap]

theorem value_mem_values (tree : RoseTree α) : tree.value ∈ tree.values := by
  cases tree with
  | node value children => exact mem_cons_self

theorem postorder_perm (tree : RoseTree α) : tree.postorder.Perm tree.values := by
  induction tree using induction with
  | node value children ih =>
    rw [postorder, values, postorderAll_eq, valuesAll_eq]
    apply (perm_append_singleton _ _).trans
    apply List.Perm.cons
    exact List.Perm.flatMap_left children ih

variable {tree : RoseTree α}

theorem mem_postorder {item : α} : item ∈ tree.postorder ↔ item ∈ tree.values :=
  tree.postorder_perm.mem_iff

inductive HasEdge : RoseTree α → α → α → Prop where
| here
    {value : α} {children : List (RoseTree α)} {child : RoseTree α} (hChild : child ∈ children) :
    HasEdge (.node value children) value child.value
| there
    {value parent item : α} {children : List (RoseTree α)} {child : RoseTree α}
    (hChild : child ∈ children) (hEdge : HasEdge child parent item) :
    HasEdge (.node value children) parent item

theorem exists_parent (hItem : item ∈ tree.values) :
  item = tree.value ∨ ∃ parent, HasEdge tree parent item := by
  induction tree using induction with
  | node value children ih =>
    rcases mem_values_node.mp hItem with rfl | ⟨child, hChild, hIn⟩
    · exact .inl rfl
    · right
      rcases ih child hChild hIn with rfl | ⟨parent, hEdge⟩
      · exact ⟨value, .here hChild⟩
      · exact ⟨parent, .there hChild hEdge⟩

variable {parent : α}

theorem HasEdge.parent_mem (hEdge : HasEdge tree parent item) : parent ∈ tree.values := by
  induction hEdge with
  | here _ => exact mem_cons_self
  | there hChild _ ih => exact mem_values_node.mpr (.inr ⟨_, hChild, ih⟩)

-- Order

inductive Precedes : RoseTree α → α → α → Prop where
| under
    {value first : α} {children : List (RoseTree α)} {child : RoseTree α}
    (hChild : child ∈ children) (hFirst : first ∈ child.values) :
    Precedes (.node value children) first value
| left
    {value first second : α} {children before after : List (RoseTree α)} {child other : RoseTree α}
    (hChildren : children = before ++ child :: after) (hFirst : first ∈ child.values)
    (hOther : other ∈ after) (hSecond : second ∈ other.values) :
    Precedes (.node value children) first second
| within
    {value first second : α} {children : List (RoseTree α)} {child : RoseTree α}
    (hChild : child ∈ children) (hPrecedes : Precedes child first second) :
    Precedes (.node value children) first second

theorem HasEdge.precedes (hEdge : HasEdge tree parent item) : Precedes tree item parent := by
  induction hEdge with
  | here hChild => exact .under hChild (value_mem_values _)
  | there hChild _ ih => exact .within hChild ih

variable {first second : α}

/- Two values of an appended list in order. -/
theorem pair_sublist_append {left right : List α} :
  [first, second].Sublist (left ++ right) ↔ [first, second].Sublist left ∨
      [first, second].Sublist right ∨ (first ∈ left ∧ second ∈ right) := by
  rw [sublist_append_iff]
  constructor
  · rintro ⟨front, back, hEq, hFront, hBack⟩
    rcases front with _ | ⟨head, _ | ⟨next, rest⟩⟩
    · rw [nil_append] at hEq
      rw [hEq]
      exact .inr (.inl hBack)
    · simp only [cons_append, nil_append, List.cons.injEq] at hEq
      rcases hEq with ⟨rfl, rfl⟩
      exact .inr (.inr ⟨singleton_sublist.mp hFront, singleton_sublist.mp hBack⟩)
    · simp only [cons_append, List.cons.injEq, nil_eq, append_eq_nil_iff] at hEq
      rcases hEq with ⟨rfl, rfl, rfl, rfl⟩
      exact .inl hFront
  · rintro (hLeft | hRight | ⟨hFirst, hSecond⟩)
    · exact ⟨_, [], by simp, hLeft, nil_sublist _⟩
    · exact ⟨[], _, by simp, nil_sublist _, hRight⟩
    · exact ⟨[first], [second], rfl, singleton_sublist.mpr hFirst,
        singleton_sublist.mpr hSecond⟩

variable {items : List α}

/- Two values are in order one way or the other. -/
theorem pair_sublist_total
  (hFirst : first ∈ items) (hSecond : second ∈ items) (hNe : first ≠ second) :
  [first, second].Sublist items ∨ [second, first].Sublist items := by
  induction items with
  | nil => cases hFirst
  | cons item items ih =>
    rcases mem_cons.mp hFirst with rfl | hLeft
    · rcases mem_cons.mp hSecond with rfl | hRight
      · exact absurd rfl hNe
      · left
        exact (singleton_sublist.mpr hRight).cons_cons _
    · rcases mem_cons.mp hSecond with rfl | hRight
      · right
        exact (singleton_sublist.mpr hLeft).cons_cons _
      · rcases ih hLeft hRight with hPair | hPair
        · exact .inl (hPair.cons _)
        · exact .inr (hPair.cons _)

/- Without repetition only one order occurs. -/
theorem not_pair_sublist_swap (hNodup : items.Nodup) (hPair : [first, second].Sublist items) :
  ¬[second, first].Sublist items := by
  induction items with
  | nil => cases hPair
  | cons item items ih =>
    intro hSwap
    rw [nodup_cons] at hNodup
    have hNotHead : ∀ other, [other, item].Sublist (item :: items) →
          False := by
      intro other hOther
      have hIn : item ∈ items := by
        cases hOther with
        | cons _ hTail => exact hTail.subset (by simp)
        | cons_cons _ hTail => exact hTail.subset (by simp)
      exact hNodup.1 hIn
    cases hPair with
    | cons_cons _ _ => exact hNotHead _ hSwap
    | cons _ hTail =>
      cases hSwap with
      | cons_cons _ _ => exact hNotHead _ (hTail.cons _)
      | cons _ hOther => exact ih hNodup.2 hTail hOther

theorem pair_sublist_flatMap {trees : List (RoseTree α)} :
  [first, second].Sublist (trees.flatMap postorder) ↔ (∃ tree ∈ trees,
      [first, second].Sublist tree.postorder) ∨
    ∃ before tree after, trees = before ++ tree :: after ∧
      first ∈ tree.values ∧ ∃ other ∈ after, second ∈ other.values := by
  induction trees with
  | nil => simp
  | cons head trees ih =>
    rw [flatMap_cons, pair_sublist_append, ih]
    constructor
    · rintro (hHead | hTail | ⟨hFirst, hSecond⟩)
      · exact .inl ⟨head, mem_cons_self, hHead⟩
      · rcases hTail with ⟨tree, hTree, hPair⟩ | ⟨before, tree, after, rfl, hFirst, hSecond⟩
        · exact .inl ⟨tree, mem_cons_of_mem _ hTree, hPair⟩
        · exact .inr ⟨head :: before, tree, after, rfl, hFirst, hSecond⟩
      · right
        rcases mem_flatMap.mp hSecond with ⟨other, hOther, hIn⟩
        exact ⟨[], head, trees, rfl, mem_postorder.mp hFirst, other, hOther, mem_postorder.mp hIn⟩
    · rintro (⟨tree, hTree, hPair⟩ | ⟨before, tree, after, hEq, hFirst, hSecond⟩)
      · rcases mem_cons.mp hTree with rfl | hTail
        · exact .inl hPair
        · exact .inr (.inl (.inl ⟨tree, hTail, hPair⟩))
      · right
        cases before with
        | nil =>
          right
          simp only [nil_append, List.cons.injEq] at hEq
          rcases hEq with ⟨rfl, rfl⟩
          rcases hSecond with ⟨other, hOther, hIn⟩
          exact ⟨mem_postorder.mpr hFirst, mem_flatMap.mpr
            ⟨other, hOther, mem_postorder.mpr hIn⟩⟩
        | cons previous before =>
          left
          right
          simp only [cons_append, List.cons.injEq] at hEq
          exact ⟨before, tree, after, hEq.2, hFirst, hSecond⟩

theorem sublist_postorder_iff {first second : α} :
  [first, second].Sublist tree.postorder ↔ Precedes tree first second := by
  induction tree using induction with
  | node value children ih =>
    rw [postorder, postorderAll_eq, pair_sublist_append, pair_sublist_flatMap]
    constructor
    · rintro ((⟨child, hChild, hPair⟩ |
          ⟨before, child, after, hEq, hFirst, other, hOther, hSecond⟩) | hRoot | ⟨hFirst, hSecond⟩)
      · exact .within hChild ((ih child hChild).mp hPair)
      · exact .left hEq hFirst hOther hSecond
      · have hLen := hRoot.length_le
        simp at hLen
      · rw [mem_singleton.mp hSecond]
        rcases mem_flatMap.mp hFirst with ⟨child, hChild, hIn⟩
        exact .under hChild (mem_postorder.mp hIn)
    · intro hPrecedes
      cases hPrecedes with
      | under hChild hFirst =>
        right
        right
        constructor
        · exact mem_flatMap.mpr ⟨_, hChild, mem_postorder.mpr hFirst⟩
        · exact mem_singleton_self _
      | left hEq hFirst hOther hSecond =>
        exact .inl (.inr ⟨_, _, _, hEq, hFirst, _, hOther, hSecond⟩)
      | within hChild hWithin => exact .inl (.inl ⟨_, hChild, (ih _ hChild).mpr hWithin⟩)

-- Grafts

variable {selects : α → Bool} {child tree : RoseTree α}

theorem graft_node (value : α) (children : List (RoseTree α)) :
  graft selects child (.node value children) = .node value (children.map (graft selects child) ++
        if selects value then [child] else []) := by
  rw [graft, graftAll_eq]
  split <;> simp

@[simp] theorem value_graft (tree : RoseTree α) :
  (graft selects child tree).value = tree.value := by
  cases tree with
  | node value children =>
    rw [graft_node]
    rfl

def grafted (selects : α → Bool) (child : RoseTree α) (items : List α) : List α :=
  items.flatMap fun item => if selects item then child.values else []

theorem grafted_flatMap : grafted selects child (trees.flatMap values) = trees.flatMap fun tree =>
      grafted selects child tree.values := by
  unfold grafted
  rw [flatMap_assoc]

theorem values_graft_perm (tree : RoseTree α) :
  (graft selects child tree).values.Perm (tree.values ++ grafted selects child tree.values) := by
  induction tree using induction with
  | node value children ih =>
    have hChildren :
        (children.flatMap fun old =>
          (graft selects child old).values).Perm
          (children.flatMap values ++ grafted selects child (children.flatMap values)) := by
      rw [grafted_flatMap]
      apply (List.Perm.flatMap_left children ih).trans
      exact (flatMap_append_perm children _ _).symm
    have hHead : grafted selects child (value :: children.flatMap values) =
          (if selects value then child.values else []) ++
            grafted selects child (children.flatMap values) := by
      unfold grafted
      rw [flatMap_cons]
    have hAdded : (if selects value then [child] else []).flatMap values =
          if selects value then child.values else [] := by
      split <;> simp
    rw [graft_node, values, values, valuesAll_eq,
      valuesAll_eq, flatMap_append, flatMap_map, cons_append, hHead, hAdded]
    apply List.Perm.cons
    apply (hChildren.append_right _).trans
    rw [append_assoc]
    exact perm_append_comm.append_left _

theorem grafted_of_unique {κ : Type} [DecidableEq κ] {key : α → κ} (hUnique : (items.map key).Nodup)
  (hItem : item ∈ items) : grafted (fun other => key other = key item) child items =
    child.values := by
  induction items with
  | nil => cases hItem
  | cons head items ih =>
    rw [map_cons, nodup_cons] at hUnique
    unfold grafted at ih ⊢
    rw [flatMap_cons]
    rcases mem_cons.mp hItem with rfl | hTail
    · have hNone :
          (items.flatMap fun other =>
            if decide (key other = key item) = true then child.values
            else []) = [] := by
        rw [flatMap_eq_nil_iff]
        intro other hOther
        rw [if_neg]
        simp only [decide_eq_true_eq]
        intro hEq
        apply hUnique.1
        rw [← hEq]
        exact List.mem_map_of_mem hOther
      rw [hNone]
      simp
    · have hNe : key head ≠ key item := by
        intro hEq
        apply hUnique.1
        rw [hEq]
        exact List.mem_map_of_mem hTail
      rw [ih hUnique.2 hTail]
      simp [hNe]

theorem HasEdge.of_graft (hEdge : HasEdge (graft selects child tree) parent item) :
  HasEdge tree parent item ∨ HasEdge child parent item ∨
    (selects parent = true ∧ item = child.value) := by
  induction tree using induction with
  | node value children ih =>
    rw [graft_node] at hEdge
    cases hEdge with
    | here hChild =>
      rcases mem_append.mp hChild with hOld | hNew
      · rcases List.mem_map.mp hOld with ⟨old, hIn, rfl⟩
        rw [value_graft]
        exact .inl (HasEdge.here hIn)
      · split_ifs at hNew with hSel
        · rw [mem_singleton.mp hNew]
          exact .inr (.inr ⟨hSel, rfl⟩)
        · cases hNew
    | there hChild hBelow =>
      rcases mem_append.mp hChild with hOld | hNew
      · rcases List.mem_map.mp hOld with ⟨old, hIn, rfl⟩
        rcases ih old hIn hBelow with hTree | hRest
        · exact .inl (.there hIn hTree)
        · exact .inr hRest
      · split_ifs at hNew with hSel
        · rw [mem_singleton.mp hNew] at hBelow
          exact .inr (.inl hBelow)
        · cases hNew

end RoseTree
