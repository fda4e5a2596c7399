import TsStack.Overlay.GraphStorage

/-
  The order in which a temporary graph is replayed.

  The loop with a stack lists the nodes of the tree after
  their children.  A graph is replayed as its spends require
  exactly when no transaction has two nodes and each spend
  that is not an edge of the tree points to an earlier node.
-/

-- The Loop

open List

namespace TsStack.Overlay

open RoseTree GraphWalk

open Gasp (Outpoint)

variable
  {getBEEF : GraphNode → Except JsError HydratedTransaction}

abbrev nodeIDs (nodes : List GraphNode) : List Outpoint :=
  nodes.map (·.nodeID)

def frames (trees : List (RoseTree GraphNode)) : List GraphFrame :=
  trees.map fun tree => { tree := tree, expanded := false }

def RunsTree
  (getBEEF : GraphNode → Except JsError HydratedTransaction) (tree : RoseTree GraphNode) : Prop :=
  ∀ turns complete visiting stack beefs, (nodeIDs tree.values).Nodup →
    (∀ node ∈ tree.values, node.nodeID ∉ complete) →
    (∀ node ∈ tree.values, node.nodeID ∉ visiting) →
      GraphWalk.run getBEEF (2 * tree.values.length + turns)
          { complete := complete
            visiting := visiting
            stack :=
              { tree := tree, expanded := false } :: stack
            beefs := beefs } =
        tree.postorder.mapM getBEEF >>= fun found =>
          GraphWalk.run getBEEF turns
            { complete :=
                (nodeIDs tree.postorder).reverse ++ complete
              visiting := visiting
              stack := stack
              beefs := beefs ++ found }

theorem run_trees
  {trees : List (RoseTree GraphNode)} (hTrees : ∀ tree ∈ trees, RunsTree getBEEF tree)
  (turns : Nat) (complete visiting : List Outpoint) (stack : List GraphFrame)
  (beefs : List HydratedTransaction) (hNodup : (nodeIDs (valuesAll trees)).Nodup)
  (hComplete : ∀ node ∈ valuesAll trees, node.nodeID ∉ complete)
  (hVisiting : ∀ node ∈ valuesAll trees, node.nodeID ∉ visiting) :
  run getBEEF (2 * (valuesAll trees).length + turns)
      { complete := complete
        visiting := visiting
        stack := frames trees ++ stack
        beefs := beefs } =
    (postorderAll trees).mapM getBEEF >>= fun found =>
        run getBEEF turns
          { complete :=
              (nodeIDs (postorderAll
                trees)).reverse ++ complete
            visiting := visiting
            stack := stack
            beefs := beefs ++ found } := by
  induction trees generalizing complete beefs with
  | nil => simp [valuesAll, postorderAll, frames]
  | cons tree trees ih =>
    rw [valuesAll, nodeIDs, map_append, nodup_append] at hNodup
    rcases hNodup with ⟨hHead, hTail, hDisj⟩
    have hRest :
        ∀ node ∈ valuesAll trees, node.nodeID ∉
          (nodeIDs tree.postorder).reverse ++ complete := by
      intro node hNode hIn
      rcases mem_append.mp hIn with hTree | hOld
      · rw [mem_reverse] at hTree
        rcases List.mem_map.mp hTree with ⟨other, hOther, hEq⟩
        exact hDisj _ (List.mem_map_of_mem (RoseTree.mem_postorder.mp hOther))
          _ (List.mem_map_of_mem hNode) hEq
      · apply hComplete node _ hOld
        rw [valuesAll]
        exact mem_append_right _ hNode
    have hTurns :
        2 * (valuesAll (tree :: trees)).length + turns =
          2 * tree.values.length + (2 * (valuesAll trees).length +
            turns) := by
      rw [valuesAll, length_append]
      omega
    have hTree :=
      hTrees tree mem_cons_self (2 * (valuesAll trees).length + turns)
        complete visiting (frames trees ++ stack) beefs hHead
        (fun node hNode =>
          hComplete node (by
            rw [valuesAll]
            exact mem_append_left _ hNode))
        (fun node hNode =>
          hVisiting node (by
            rw [valuesAll]
            exact mem_append_left _ hNode))
    rw [hTurns, frames, map_cons, cons_append,
      ← frames, hTree, postorderAll,
      mapM_append, bind_assoc]
    congr 1
    funext found
    rw [ih (fun other hOther =>
        hTrees other (mem_cons_of_mem _ hOther))
      _ _ hTail hRest
      (fun node hNode =>
        hVisiting node (by
          rw [valuesAll]
          exact mem_append_right _ hNode))]
    simp [bind_assoc, nodeIDs]

theorem runsTree (tree : RoseTree GraphNode) : RunsTree getBEEF tree := by
  induction tree using RoseTree.induction with
  | node value children ih =>
    intro turns complete visiting stack beefs hNodup hComplete hVisiting
    rw [values, nodeIDs, map_cons, nodup_cons] at hNodup
    have hSelf := mem_cons_self (a := value)
      (l := valuesAll children)
    have hEnter := hComplete value hSelf
    have hFresh := hVisiting value hSelf
    have hBelow :
        ∀ node ∈ valuesAll children, node.nodeID ∉ value.nodeID :: visiting := by
      intro node hNode hIn
      rcases mem_cons.mp hIn with hEq | hOld
      · apply hNodup.1
        rw [← hEq]
        exact List.mem_map_of_mem hNode
      · exact hVisiting node (mem_cons_of_mem _ hNode) hOld
    have hTurns :
        2 * (values (.node value children)).length + turns =
          2 * (valuesAll children).length + (turns + 1) + 1 := by
      rw [values, length_cons]
      omega
    have hLeft :
        value.nodeID ∉ (nodeIDs (postorderAll
          children)).reverse ++ complete := by
      intro hIn
      rcases mem_append.mp hIn with hChild | hOld
      · rw [mem_reverse] at hChild
        rcases List.mem_map.mp hChild with ⟨other, hOther, hEq⟩
        apply hNodup.1
        rw [← hEq]
        apply List.mem_map_of_mem
        rw [postorderAll_eq] at hOther
        rw [valuesAll_eq]
        exact (List.Perm.flatMap_left children
          fun child _ => child.postorder_perm).mem_iff.mp hOther
      · exact hEnter hOld
    rw [hTurns, run]
    simp only [Bool.false_eq_true, if_false,
      enter, RoseTree.value, RoseTree.children,
      hEnter, hFresh]
    rw [ok_bind]
    have hTrees :=
      run_trees ih (turns + 1) complete (value.nodeID :: visiting)
        ({ tree := .node value children
           expanded := true } :: stack)
        beefs hNodup.2
        (fun node hNode =>
          hComplete node (mem_cons_of_mem _ hNode))
        hBelow
    rw [frames] at hTrees
    rw [hTrees, postorder, mapM_append, bind_assoc]
    congr 1
    funext found
    rw [run]
    simp only [if_true, leave, RoseTree.value, hLeft, if_false]
    rw [mapM_cons, mapM_nil]
    cases getBEEF value with
    | error error => rfl
    | ok beef =>
      have hComplete' :
          (nodeIDs (postorderAll children ++
              [value])).reverse ++ complete =
            value.nodeID ::
              ((nodeIDs (postorderAll children)).reverse ++ complete) := by
        simp [nodeIDs]
      simp only [ok_bind, pure_bind, hComplete', append_assoc]
      rw [filter_cons_of_neg (by simp), filter_eq_self.mpr]
      intro outpoint hIn
      apply decide_eq_true
      intro hEq
      have hSame : outpoint = value.nodeID := hEq
      exact hFresh (hSame ▸ hIn)

variable {graph : TemporaryGraph}

theorem computeOrderedBEEFsForGraph_eq {toBEEF : BEEFWriter} {root : RoseTree GraphNode}
  (hRoot : graph.root = some root) (hNodup : (nodeIDs root.values).Nodup) :
  computeOrderedBEEFsForGraph toBEEF graph =
    root.postorder.mapM (getBEEFForNode toBEEF graph) := by
  have hNodes : graph.nodes = root.values := by
    unfold TemporaryGraph.nodes
    rw [hRoot]
  have hRun :=
    @runsTree (getBEEFForNode toBEEF graph) root 0 [] [] [] [] hNodup (by simp) (by simp)
  unfold computeOrderedBEEFsForGraph
  rw [hRoot, hNodes]
  simp only [Nat.add_zero] at hRun
  simp only
  rw [hRun]
  simp only [run, nil_append]
  exact bind_pure _

-- Graphs That Are Held

inductive GraphStep :
  OverlayGASPStorage → OverlayGASPStorage → Prop where
| append
    {storage next : OverlayGASPStorage} {tx : GASPNode} {spentBy : Option Outpoint}
    (hAppend : appendToGraph storage tx spentBy = .ok next) :
    GraphStep storage next
| discard
    (storage : OverlayGASPStorage) (graphID : Outpoint) :
    GraphStep storage (discardGraph storage graphID)

def GraphNode.spends (node : GraphNode) : List Outpoint :=
  match parseTransaction node.rawTx with
  | .error _ => []
  | .ok parsed => parsed.transaction.inputs.map inputOutpoint

def GraphNode.outpoint (node : GraphNode) : Outpoint where
  txid := toLowerCase node.txid
  outputIndex := node.outputIndex

structure TreeInvariant (root : RoseTree GraphNode) : Prop where
  distinct : (nodeIDs root.values).Nodup
  spent : ∀ parent node, root.HasEdge parent node → node.outpoint ∈ parent.spends
  parsed :
    ∀ node ∈ root.values, ∃ parsed,
      parseTransaction node.rawTx = .ok parsed ∧ parsed.txid = node.txid

def StorageInvariant (storage : OverlayGASPStorage) : Prop :=
  ∀ graphID root, (storage.graphs graphID).root = some root → TreeInvariant root

variable {node : GraphNode}

theorem graphNode_eq_some {nodeID : Outpoint}
  (hNode : graphNode graph nodeID = some node) : node ∈ graph.nodes ∧ node.nodeID = nodeID := by
  constructor
  · exact mem_of_find?_eq_some hNode
  · simpa using find?_some hNode

theorem graphNode_eq_none {nodeID : Outpoint} (hNode : graphNode graph nodeID = none) :
  ∀ node ∈ graph.nodes, node.nodeID ≠ nodeID := by
  intro node hIn
  simpa using find?_eq_none.mp hNode node hIn

theorem checkParentInput_eq_ok {parent : GraphNode}
  (hCheck : checkParentInput parent node.txid node.outputIndex = .ok ()) :
  node.outpoint ∈ parent.spends := by
  rcases bind_eq_ok_iff.mp hCheck with ⟨parsed, hParsed, hAny⟩
  split_ifs at hAny with hInput
  · rcases List.any_eq_true.mp hInput with
      ⟨input, hIn, hEq⟩
    unfold GraphNode.spends
    rw [hParsed]
    apply List.mem_map.mpr
    exact ⟨input, hIn, of_decide_eq_true hEq⟩

theorem TreeInvariant.graft
  {old : RoseTree GraphNode} (hOld : TreeInvariant old) {parent : GraphNode}
  (hParent : parent ∈ old.values) (hFresh : ∀ other ∈ old.values, other.nodeID ≠ node.nodeID)
  (hSpent : node.outpoint ∈ parent.spends) {parsed : ParsedTransaction}
  (hParsed : parseTransaction node.rawTx = .ok parsed) (hTxid : parsed.txid = node.txid) :
  TreeInvariant (RoseTree.graft (·.nodeID = parent.nodeID) (.node node []) old) := by
  have hPerm :
      (RoseTree.graft (·.nodeID = parent.nodeID) (.node node []) old).values.Perm
        (old.values ++ [node]) := by
    have hValues :=
      @RoseTree.values_graft_perm GraphNode (fun other => other.nodeID = parent.nodeID)
        (.node node []) old
    have hGrafted :
        grafted (fun other => other.nodeID = parent.nodeID)
            (.node node []) old.values =
          (RoseTree.node node []).values :=
      grafted_of_unique hOld.distinct hParent
    rw [hGrafted] at hValues
    exact hValues
  constructor
  · have hIDs := hPerm.map GraphNode.nodeID
    unfold nodeIDs
    rw [hIDs.nodup_iff, map_append, nodup_append]
    refine ⟨hOld.distinct, by simp, ?_⟩
    intro outpoint hIn other hNew
    rcases List.mem_map.mp hIn with ⟨node', hNode', rfl⟩
    rw [mem_singleton.mp hNew]
    exact hFresh node' hNode'
  · intro first second hEdge
    have hFirst := hPerm.mem_iff.mp hEdge.parent_mem
    rcases hEdge.of_graft with hTree | hLeaf | ⟨hSelect, hEq⟩
    · exact hOld.spent first second hTree
    · cases hLeaf with
      | here hChild => cases hChild
      | there hChild _ => cases hChild
    · have hSame : first.nodeID = parent.nodeID := by
        simpa using hSelect
      rcases mem_append.mp hFirst with hIn | hNew
      · have hEqual :=
          inj_on_of_nodup_map hOld.distinct hIn hParent hSame
        rw [hEqual, hEq]
        exact hSpent
      · rw [mem_singleton.mp hNew] at hSame
        exact absurd hSame.symm (hFresh parent hParent)
  · intro other hIn
    rcases mem_append.mp (hPerm.mem_iff.mp hIn) with
      hTree | hNew
    · exact hOld.parsed other hTree
    · rw [mem_singleton.mp hNew]
      exact ⟨parsed, hParsed, hTxid⟩

theorem TreeInvariant.link (hGraph : ∀ root, graph.root = some root → TreeInvariant root)
  {parsed : ParsedTransaction}
  (hParsed : parseTransaction node.rawTx = .ok parsed) (hTxid : parsed.txid = node.txid)
  {spentBy : Option Outpoint} {root : RoseTree GraphNode}
  (hLink : linkNode graph node spentBy = .ok root) : TreeInvariant root := by
  cases spentBy with
  | none =>
    unfold linkNode at hLink
    split_ifs at hLink
    cases hRoot : graph.root with
    | some old =>
      rw [hRoot] at hLink
      cases hLink
    | none =>
      rw [hRoot] at hLink
      cases hLink
      constructor
      · simp [values, valuesAll]
      · intro parent child hEdge
        cases hEdge with
        | here hChild => cases hChild
        | there hChild _ => cases hChild
      · intro other hIn
        rcases RoseTree.mem_values_node.mp hIn with
          rfl | ⟨child, hChild, _⟩
        · exact ⟨parsed, hParsed, hTxid⟩
        · cases hChild
  | some spentBy =>
    rcases bind_eq_ok_iff.mp hLink with ⟨_, _, hLink⟩
    cases hRoot : graph.root with
    | none =>
      rw [hRoot] at hLink
      cases hLink
    | some old =>
      cases hParent : graphNode graph spentBy with
      | none =>
        rw [hRoot, hParent] at hLink
        cases hLink
      | some parent =>
        cases hNode : graphNode graph node.nodeID with
        | some other =>
          rw [hRoot, hParent] at hLink
          simp only [hNode] at hLink
          cases hLink
        | none =>
          rw [hRoot, hParent] at hLink
          simp only [hNode] at hLink
          rcases bind_eq_ok_iff.mp hLink with ⟨_, hCheck, hEq⟩
          cases hEq
          have hNodes : graph.nodes = old.values := by
            unfold TemporaryGraph.nodes
            rw [hRoot]
          rcases graphNode_eq_some hParent with ⟨hIn, rfl⟩
          have hFresh := graphNode_eq_none hNode
          rw [hNodes] at hIn hFresh
          exact (hGraph old hRoot).graft hIn hFresh
            (checkParentInput_eq_ok hCheck) hParsed
            hTxid

theorem StorageInvariant.step
  {storage next : OverlayGASPStorage} (hStorage : StorageInvariant storage)
  (hStep : GraphStep storage next) : StorageInvariant next := by
  intro graphID root hRoot
  cases hStep with
  | @append _ tx spentBy hAppend =>
    rcases bind_eq_ok_iff.mp hAppend with ⟨parsed, hParsed, hAppend⟩
    rcases bind_eq_ok_iff.mp hAppend with ⟨_, _, hAppend⟩
    rcases bind_eq_ok_iff.mp hAppend with ⟨linked, hLink, hEq⟩
    cases hEq
    simp only [Function.update_apply] at hRoot
    split_ifs at hRoot with hGraph
    · cases hRoot
      exact TreeInvariant.link (fun old hOld => hStorage tx.graphID old hOld)
        hParsed rfl hLink
    · exact hStorage graphID root hRoot
  | discard discarded =>
    simp only [discardGraph, Function.update_apply] at hRoot
    split_ifs at hRoot with hGraph
    exact hStorage graphID root hRoot

theorem storageInvariant_of_run
  {maxNodesInGraph maxBytesInGraph : Nat} {storage : OverlayGASPStorage} (hRun :
    Relation.ReflTransGen GraphStep
      { maxNodesInGraph := maxNodesInGraph
        maxBytesInGraph := maxBytesInGraph } storage) :
  StorageInvariant storage := by
  induction hRun with
  | refl =>
    intro graphID root hRoot
    cases hRoot
  | tail _ hStep ih => exact ih.step hStep

-- The Statement

def SpendsDistinct (root : RoseTree GraphNode) : Prop :=
  ∀ first ∈ root.values, ∀ second ∈ root.values,
    ∀ outpoint ∈ first.spends, outpoint ∈ second.spends →
      first.txid = second.txid

def HydratedTransaction.spends (beef : HydratedTransaction) : List Outpoint :=
  beef.parsed.transaction.inputs.map inputOutpoint

structure ReplaysGraph (toBEEF : BEEFWriter) (graph : TemporaryGraph) (root : RoseTree GraphNode)
  (beefs : List HydratedTransaction) : Prop where
  computed : computeOrderedBEEFsForGraph toBEEF graph = .ok beefs
  once : (beefs.map (·.parsed.txid)).Nodup
  all : ∀ txid, txid ∈ beefs.map (·.parsed.txid) ↔ txid ∈ root.values.map (·.txid)
  ordered :
    beefs.Pairwise fun earlier later =>
      ∀ outpoint ∈ earlier.spends, outpoint.txid ≠ toLowerCase later.parsed.txid

def NeverConflicts
  (toBEEF : BEEFWriter) (storage : OverlayGASPStorage) (graphID : Outpoint) : Prop :=
  ∀ engine outpoint, validateGraphAnchor toBEEF engine storage graphID ≠
      .error (.conflictingSpend outpoint)

/-
  When a graph is replayed in order: no transaction has two nodes, each node can be written, and a
  transaction comes after another of which it spends an output that is not a child in the graph.
-/
structure ReplayCondition
  (toBEEF : BEEFWriter) (graph : TemporaryGraph) (root : RoseTree GraphNode) : Prop where
  one_node : (root.values.map (·.txid)).Nodup
  written : ∀ node ∈ root.values, ∃ beef, getBEEFForNode toBEEF graph node = .ok beef
  earlier :
    ∀ first ∈ root.values, ∀ second ∈ root.values,
      first ≠ second → ∀ outpoint ∈ second.spends,
          outpoint.txid = toLowerCase first.txid →
            outpoint ≠ first.outpoint ∨ first = root.value → root.Precedes first second

-- Order

variable {toBEEF : BEEFWriter} {graph : TemporaryGraph} {root : RoseTree GraphNode}
variable {beefs : List HydratedTransaction} {beef : HydratedTransaction} {node : GraphNode}

theorem parsed_of_getBEEFForNode (hBeef : getBEEFForNode toBEEF graph node = .ok beef) :
  parseTransaction node.rawTx = .ok beef.parsed := by
  rcases bind_eq_ok_iff.mp hBeef with ⟨finalTX, hHydrated, hWrite⟩
  rcases bind_eq_ok_iff.mp hWrite with ⟨_, _, hEq⟩
  cases hEq
  cases hDepth : graph.nodes.length with
  | zero =>
    rw [hDepth] at hHydrated
    cases hHydrated
  | succ depth =>
    rw [hDepth, hydrator] at hHydrated
    rcases bind_eq_ok_iff.mp hHydrated with ⟨parsed, hParsed, hHydrated⟩
    rw [hParsed]
    cases hProof : node.proof.filter (· ≠ []) with
    | some proof =>
      rw [hProof] at hHydrated
      rcases bind_eq_ok_iff.mp hHydrated with ⟨merklePath, _, hEq⟩
      cases hEq
      rfl
    | none =>
      rw [hProof] at hHydrated
      rcases bind_eq_ok_iff.mp hHydrated with ⟨sources, _, hEq⟩
      cases hEq
      rfl

theorem TreeInvariant.beef_spec (hTree : TreeInvariant root) (hNode : node ∈ root.values)
  (hBeef : getBEEFForNode toBEEF graph node = .ok beef) :
  beef.parsed.txid = node.txid ∧ beef.spends = node.spends := by
  have hParsed := parsed_of_getBEEFForNode hBeef
  rcases hTree.parsed node hNode with ⟨parsed, hEq, hTxid⟩
  rw [hParsed] at hEq
  cases hEq
  constructor
  · exact hTxid
  · unfold HydratedTransaction.spends GraphNode.spends
    rw [hParsed]

theorem ReplayCondition.precedes
  (hCond : ReplayCondition toBEEF graph root) (hTree : TreeInvariant root)
  (hDist : SpendsDistinct root) {first second : GraphNode} (hFirst : first ∈ root.values)
  (hSecond : second ∈ root.values) (hNe : first ≠ second) {outpoint : Outpoint}
  (hSpends : outpoint ∈ second.spends) (hTxid : outpoint.txid = toLowerCase first.txid) :
  root.Precedes first second := by
  by_cases hOther :
    outpoint ≠ first.outpoint ∨ first = root.value
  · exact hCond.earlier first hFirst second hSecond hNe outpoint hSpends hTxid hOther
  · push Not at hOther
    -- the node was fetched by a spender of its outpoint
    rcases exists_parent hFirst with
      hRoot | ⟨parent, hEdge⟩
    · exact absurd hRoot hOther.2
    · have hParent := hTree.spent parent first hEdge
      rw [← hOther.1] at hParent
      have hSame :=
        hDist parent hEdge.parent_mem second hSecond outpoint hParent hSpends
      have hEqual :=
        inj_on_of_nodup_map hCond.one_node hEdge.parent_mem hSecond hSame
      rw [← hEqual]
      exact hEdge.precedes

variable {α β : Type}

/- A traversal of successes succeeds. -/
theorem exists_mapM {f : α → Except JsError β} {xs : List α} (hEach : ∀ x ∈ xs, ∃ y, f x = .ok y) :
  ∃ ys, xs.mapM f = .ok ys := by
  induction xs with
  | nil => exact ⟨[], rfl⟩
  | cons x xs ih =>
    rcases hEach x mem_cons_self with ⟨y, hHead⟩
    rcases ih fun other hOther =>
      hEach other (mem_cons_of_mem _ hOther) with
      ⟨ys, hTail⟩
    refine ⟨y :: ys, ?_⟩
    rw [mapM_cons, hHead, ok_bind, hTail]
    rfl

/- A traversal that succeeds does so at each element. -/
theorem exists_of_mapM
  {f : α → Except JsError β} {xs : List α} {ys : List β} (hMap : xs.mapM f = .ok ys) {x : α}
  (hIn : x ∈ xs) : ∃ y, f x = .ok y := by
  have hEach := forall₂_of_mapM hMap
  clear hMap
  induction hEach with
  | nil => cases hIn
  | cons hHead _ ih =>
    rcases mem_cons.mp hIn with rfl | hTail
    · exact ⟨_, hHead⟩
    · exact ih hTail

section

variable
    (hTree : TreeInvariant root)
    (hMap : root.postorder.mapM (getBEEFForNode toBEEF graph) = .ok beefs)

include hTree hMap

theorem TreeInvariant.summaries : beefs.map (fun beef => (beef.parsed.txid, beef.spends)) =
    root.postorder.map (fun node => (node.txid, node.spends)) := by
  have hIn : ∀ node ∈ root.postorder, node ∈ root.values :=
    fun _ hNode => RoseTree.mem_postorder.mp hNode
  have hEach := forall₂_of_mapM hMap
  clear hMap
  generalize root.postorder = nodes at hEach hIn ⊢
  induction hEach with
  | nil => rfl
  | cons hBeef _ ih =>
    rw [map_cons, map_cons, ih fun node hNode =>
      hIn node (mem_cons_of_mem _ hNode)]
    rcases hTree.beef_spec (hIn _ mem_cons_self) hBeef with ⟨hTxid, hSpends⟩
    rw [hTxid, hSpends]

theorem TreeInvariant.txids : beefs.map (·.parsed.txid) = root.postorder.map (·.txid) := by
  have hEq := congrArg (map Prod.fst) (hTree.summaries hMap)
  simpa [Function.comp_def] using hEq

end

def InOrder (nodes : List GraphNode) : Prop :=
  nodes.Pairwise fun earlier later =>
    ∀ outpoint ∈ earlier.spends, outpoint.txid ≠ toLowerCase later.txid

theorem TreeInvariant.ordered_iff (hTree : TreeInvariant root)
  (hMap : root.postorder.mapM (getBEEFForNode toBEEF graph) = .ok beefs) :
  (beefs.Pairwise fun earlier later =>
    ∀ outpoint ∈ earlier.spends, outpoint.txid ≠ toLowerCase later.parsed.txid) ↔
    InOrder root.postorder := by
  have hEq :=
    congrArg (List.Pairwise
        fun (earlier later : JsString × List Outpoint) =>
          ∀ outpoint ∈ earlier.2, outpoint.txid ≠ toLowerCase later.1)
      (hTree.summaries hMap)
  rw [pairwise_map, pairwise_map] at hEq
  unfold InOrder
  rw [hEq]

/- The walk lists no node twice. -/
theorem TreeInvariant.postorder_nodup (hTree : TreeInvariant root) : root.postorder.Nodup := by
  rw [root.postorder_perm.nodup_iff]
  exact hTree.distinct.of_map _

theorem ReplayCondition.replays
  (hCond : ReplayCondition toBEEF graph root) (hTree : TreeInvariant root)
  (hDist : SpendsDistinct root) (hRoot : graph.root = some root) :
  ∃ beefs, ReplaysGraph toBEEF graph root beefs := by
  have hWritten :
      ∀ node ∈ root.postorder, ∃ beef, getBEEFForNode toBEEF graph node = .ok beef :=
    fun node hNode => hCond.written node (RoseTree.mem_postorder.mp hNode)
  rcases exists_mapM hWritten with ⟨beefs, hMap⟩
  have hTxids := hTree.txids hMap
  have hPerm :=
    root.postorder_perm.map (fun node => node.txid)
  refine ⟨beefs, ?_, ?_, ?_, ?_⟩
  · rw [computeOrderedBEEFsForGraph_eq hRoot hTree.distinct]
    exact hMap
  · rw [hTxids, hPerm.nodup_iff]
    exact hCond.one_node
  · intro txid
    rw [hTxids]
    exact hPerm.mem_iff
  · rw [hTree.ordered_iff hMap, InOrder, pairwise_iff_forall_sublist]
    intro earlier later hPair outpoint hSpends hTxid
    have hEarlier : earlier ∈ root.values :=
      RoseTree.mem_postorder.mp (hPair.subset (by simp))
    have hLater : later ∈ root.values :=
      RoseTree.mem_postorder.mp (hPair.subset (by simp))
    have hNe : later ≠ earlier := by
      intro hEq
      have hTwice := hPair.nodup hTree.postorder_nodup
      rw [hEq] at hTwice
      simp at hTwice
    have hPrecedes :=
      hCond.precedes hTree hDist hLater hEarlier hNe hSpends hTxid
    exact not_pair_sublist_swap hTree.postorder_nodup
      hPair (RoseTree.sublist_postorder_iff.mpr hPrecedes)

theorem ReplaysGraph.condition
  (hReplays : ReplaysGraph toBEEF graph root beefs) (hTree : TreeInvariant root)
  (hRoot : graph.root = some root) : ReplayCondition toBEEF graph root := by
  have hMap := hReplays.computed
  rw [computeOrderedBEEFsForGraph_eq hRoot hTree.distinct]
    at hMap
  have hPerm :=
    root.postorder_perm.map (fun node => node.txid)
  constructor
  · have hOnce := hReplays.once
    rw [hTree.txids hMap, hPerm.nodup_iff] at hOnce
    exact hOnce
  · intro node hNode
    exact
      exists_of_mapM hMap (RoseTree.mem_postorder.mpr hNode)
  · intro first hFirst second hSecond hNe outpoint hSpends hTxid _
    have hOrdered := (hTree.ordered_iff hMap).mp hReplays.ordered
    rw [InOrder, pairwise_iff_forall_sublist]
      at hOrdered
    rcases pair_sublist_total (RoseTree.mem_postorder.mpr hFirst)
      (RoseTree.mem_postorder.mpr hSecond) hNe with
      hPair | hSwap
    · exact RoseTree.sublist_postorder_iff.mp hPair
    · exact absurd hTxid (hOrdered hSwap outpoint hSpends)

-- Conflicts

variable {toBEEF : BEEFWriter} {engine : GraphEngine} {sets after : AnchorSets}
variable {beefs : List HydratedTransaction} {beef : HydratedTransaction} {outpoint : Outpoint}

theorem anchored_ne_conflict (result : Except JsError α) :
  anchored result ≠ .error (.conflictingSpend outpoint) := by
  cases result with
  | ok value => exact fun hEq => by cases hEq
  | error error => exact fun hEq => by cases hEq

theorem bind_eq_error {ε : Type} {x : Except ε α} {f : α → Except ε β} {error : ε}
  (hBind : (x >>= f) = .error error) :
  x = .error error ∨ ∃ value, x = .ok value ∧ f value = .error error := by
  cases x with
  | error other =>
    left
    cases hBind
    rfl
  | ok value => exact .inr ⟨value, rfl, hBind⟩

theorem spendInputs_spec {spentOutpoints : List Outpoint} {inputs : List TransactionInput}
  (hFresh : ∀ input ∈ inputs, inputOutpoint input ∉ spentOutpoints) :
  spendInputs spentOutpoints inputs ≠ .error (.conflictingSpend outpoint) ∧
    ∀ outpoints, spendInputs spentOutpoints inputs = .ok outpoints →
        outpoints = inputs.map inputOutpoint := by
  induction inputs with
  | nil =>
    constructor
    · exact fun hEq => by cases hEq
    · intro outpoints hEq
      cases hEq
      rfl
  | cons input inputs ih =>
    rcases ih fun other hOther =>
      hFresh other (mem_cons_of_mem _ hOther) with
      ⟨hError, hOk⟩
    unfold spendInputs
    rw [if_neg (hFresh input mem_cons_self)]
    constructor
    · split_ifs with hRes
      · exact fun hEq => by cases hEq
      · intro hBind
        rcases bind_eq_error hBind with
          hTail | ⟨_, _, hEq⟩
        · exact hError hTail
        · cases hEq
    · intro outpoints hEq
      split_ifs at hEq
      rcases bind_eq_ok_iff.mp hEq with ⟨tail, hTail, hEq⟩
      cases hEq
      rw [hOk tail hTail, map_cons]

theorem admitHistoricalBEEF_spec (hFresh : ∀ spent ∈ beef.spends, spent ∉ sets.spentOutpoints) :
  admitHistoricalBEEF engine sets beef ≠ .error (.conflictingSpend outpoint) ∧
    ∀ after, admitHistoricalBEEF engine sets beef = .ok after →
        after.spentOutpoints = sets.spentOutpoints ++ beef.spends := by
  have hInputs :
      ∀ input ∈ beef.parsed.transaction.inputs,
        inputOutpoint input ∉ sets.spentOutpoints :=
    fun input hInput => hFresh _ (List.mem_map_of_mem hInput)
  have hSpend := @spendInputs_spec outpoint _ _ hInputs
  constructor
  · intro hError
    rcases bind_eq_error hError with hRead | ⟨_, _, hError⟩
    · exact anchored_ne_conflict _ hRead
    · rcases bind_eq_error hError with
        hConflict | ⟨_, _, hError⟩
      · exact hSpend.1 hConflict
      · rcases bind_eq_error hError with
          hManager | ⟨_, _, hError⟩
        · exact anchored_ne_conflict _ hManager
        · rcases bind_eq_error hError with
            hValid | ⟨_, _, hError⟩
          · exact anchored_ne_conflict _ hValid
          · cases hError
  · intro after hAfter
    rcases bind_eq_ok_iff.mp hAfter with ⟨_, _, hAfter⟩
    rcases bind_eq_ok_iff.mp hAfter with ⟨outpoints, hOutpoints, hAfter⟩
    rcases bind_eq_ok_iff.mp hAfter with ⟨_, _, hAfter⟩
    rcases bind_eq_ok_iff.mp hAfter with ⟨_, _, hEq⟩
    cases hEq
    rw [hSpend.2 outpoints hOutpoints]
    rfl

theorem foldlM_admit_ne_conflict (hDisj :
    beefs.Pairwise fun earlier later =>
      ∀ spent ∈ later.spends, spent ∉ earlier.spends)
  (hFresh : ∀ beef ∈ beefs, ∀ spent ∈ beef.spends, spent ∉ sets.spentOutpoints) :
  beefs.foldlM (admitHistoricalBEEF engine) sets ≠
    .error (.conflictingSpend outpoint) := by
  induction beefs generalizing sets with
  | nil => exact fun hEq => by cases hEq
  | cons beef beefs ih =>
    rw [pairwise_cons] at hDisj
    have hSpec :=
      @admitHistoricalBEEF_spec engine sets beef outpoint (hFresh beef mem_cons_self)
    rw [foldlM_cons]
    intro hError
    rcases bind_eq_error hError with
      hHead | ⟨after, hAfter, hTail⟩
    · exact hSpec.1 hHead
    · apply ih hDisj.2 _ hTail
      intro later hLater spent hSpent hIn
      rw [hSpec.2 after hAfter] at hIn
      rcases mem_append.mp hIn with hOld | hNew
      · exact hFresh later (mem_cons_of_mem _ hLater) spent hSpent hOld
      · exact hDisj.1 later hLater spent hSpent hNew

variable {graph : TemporaryGraph} {root : RoseTree GraphNode} {storage : OverlayGASPStorage}
variable {graphID : Outpoint}

theorem ReplaysGraph.disjoint
  (hReplays : ReplaysGraph toBEEF graph root beefs) (hTree : TreeInvariant root)
  (hDist : SpendsDistinct root) (hRoot : graph.root = some root) :
  beefs.Pairwise fun earlier later =>
    ∀ spent ∈ later.spends, spent ∉ earlier.spends := by
  have hMap := hReplays.computed
  rw [computeOrderedBEEFsForGraph_eq hRoot hTree.distinct]
    at hMap
  have hOnce := hReplays.once
  rw [hTree.txids hMap, List.Nodup, pairwise_map]
    at hOnce
  have hEq :=
    congrArg (List.Pairwise
        fun (earlier later : JsString × List Outpoint) =>
          ∀ spent ∈ later.2, spent ∉ earlier.2)
      (hTree.summaries hMap)
  rw [pairwise_map, pairwise_map] at hEq
  rw [hEq]
  apply hOnce.imp_of_mem
  intro earlier later hEarlier hLater hNe spent hSpent hIn
  exact hNe (hDist earlier (RoseTree.mem_postorder.mp hEarlier)
    later (RoseTree.mem_postorder.mp hLater) spent hIn
    hSpent)

theorem ReplaysGraph.neverConflicts
  (hReplays : ReplaysGraph toBEEF (storage.graphs graphID) root beefs)
  (hTree : TreeInvariant root) (hDist : SpendsDistinct root)
  (hRoot : (storage.graphs graphID).root = some root) : NeverConflicts toBEEF storage graphID := by
  intro engine outpoint hError
  unfold validateGraphAnchor at hError
  simp only [hRoot] at hError
  rcases bind_eq_error hError with hBeef | ⟨_, _, hError⟩
  · exact anchored_ne_conflict _ hBeef
  · rcases bind_eq_error hError with
      hVerify | ⟨_, _, hError⟩
    · rcases bind_eq_error hVerify with
        hRead | ⟨_, _, hVerify⟩
      · exact anchored_ne_conflict _ hRead
      · rcases bind_eq_error hVerify with
          hCheck | ⟨valid, _, hVerify⟩
        · exact anchored_ne_conflict _ hCheck
        · split_ifs at hVerify
          · cases hVerify
          · cases hVerify
    · rcases bind_eq_error hError with
        hOrder | ⟨found, hFound, hError⟩
      · exact anchored_ne_conflict _ hOrder
      · rw [hReplays.computed] at hFound
        cases hFound
        rcases bind_eq_error hError with
          hFold | ⟨_, _, hError⟩
        · apply foldlM_admit_ne_conflict (hReplays.disjoint hTree hDist hRoot) _ hFold
          intro beef _ spent _ hIn
          cases hIn
        · unfold checkAdmittance at hError
          split_ifs at hError
          cases hError

/-
  A graph without conflicting transactions is replayed in order, and its anchor is not rejected
  for a conflict, just when it meets the condition.
-/
theorem replays_iff
  (toBEEF : BEEFWriter) {maxNodesInGraph maxBytesInGraph : Nat} {storage : OverlayGASPStorage}
  (hRun :
    Relation.ReflTransGen GraphStep
      { maxNodesInGraph := maxNodesInGraph
        maxBytesInGraph := maxBytesInGraph } storage)
  {graphID : Outpoint} {root : RoseTree GraphNode}
  (hRoot : (storage.graphs graphID).root = some root) (hDistinct : SpendsDistinct root) :
  ((∃ beefs, ReplaysGraph toBEEF (storage.graphs graphID) root beefs) ∧
    NeverConflicts toBEEF storage graphID) ↔
    ReplayCondition toBEEF (storage.graphs graphID)
      root := by
  have hTree :=
    storageInvariant_of_run hRun graphID root hRoot
  constructor
  · rintro ⟨⟨beefs, hReplays⟩, _⟩
    exact hReplays.condition hTree hRoot
  · intro hCondition
    rcases hCondition.replays hTree hDistinct hRoot with ⟨beefs, hReplays⟩
    exact ⟨⟨beefs, hReplays⟩, hReplays.neverConflicts hTree hDistinct hRoot⟩

-- Spenders of One Parent

/- A transaction with empty scripts and worthless outputs. -/
def plainBytes (inputs : List (Bytes × UInt8)) (outputs : Nat) : Bytes :=
  [1, 0, 0, 0, UInt8.ofNat inputs.length] ++ inputs.flatMap (fun (hash, index) =>
        hash ++ [index, 0, 0, 0, 0, 255, 255, 255, 255]) ++
      [UInt8.ofNat outputs] ++ List.replicate (9 * outputs) 0 ++ [0, 0, 0, 0]

/- A parent with two outputs, and its hash. -/
def parentBytes : Bytes :=
  plainBytes [(List.replicate 32 0, 0)] 2

def parentHash : Bytes :=
  [232, 18, 1, 148, 79, 81, 25, 116, 6, 216, 152, 238, 235,
    8, 218, 83, 190, 11, 119, 148, 85, 10, 84, 51, 215, 15,
    87, 242, 147, 241, 224, 246]

def parentNode (graphID : Outpoint) (outputIndex : Nat) : GASPNode where
  graphID := graphID
  rawTx := toHex parentBytes
  outputIndex := outputIndex
  proof := some (toHex ([5, 1, 1, 0, 2] ++ parentHash))

variable (indexes : List UInt8)

def spenderBytes : Bytes :=
  plainBytes (indexes.map fun index => (parentHash, index)) 1

def spenderNode : GASPNode where
  graphID :=
    { txid := BeefTx.rawTxid (spenderBytes indexes)
      outputIndex := 0 }
  rawTx := toHex (spenderBytes indexes)
  outputIndex := 0

def spenderAppends :
  List (GASPNode × Option Outpoint) :=
  let graphID := (spenderNode indexes).graphID
  (spenderNode indexes, none) ::
    indexes.map fun index => (parentNode graphID index.toNat, some graphID)

def appendAll (storage : OverlayGASPStorage) (appends : List (GASPNode × Option Outpoint)) :
  Except JsError OverlayGASPStorage :=
  appends.foldlM (fun storage (tx, spentBy) =>
    appendToGraph storage tx spentBy) storage

def storageOf (appends : List (GASPNode × Option Outpoint)) :
  OverlayGASPStorage :=
  match appendAll {} appends with
  | .ok storage => storage
  | .error _ => {}

theorem run_appendAll {final : OverlayGASPStorage} {appends : List (GASPNode × Option Outpoint)}
  (hAppend : appendAll storage appends = .ok final) :
  Relation.ReflTransGen GraphStep storage final := by
  induction appends generalizing storage with
  | nil =>
    cases hAppend
    exact .refl
  | cons append appends ih =>
    rcases bind_eq_ok_iff.mp hAppend with ⟨next, hNext, hRest⟩
    exact .head (.append hNext) (ih hRest)

theorem run_storageOf (appends : List (GASPNode × Option Outpoint)) :
  Relation.ReflTransGen GraphStep {} (storageOf appends) := by
  unfold storageOf
  cases hAppend : appendAll {} appends with
  | error error => exact .refl
  | ok storage => exact run_appendAll hAppend

def spenderGraph : TemporaryGraph :=
  (storageOf (spenderAppends indexes)).graphs (spenderNode indexes).graphID

def acceptingWriter : BEEFWriter :=
  fun _ => .ok ()

def acceptingEngine : GraphEngine where
  fromBEEF := fun _ => .ok ()
  verify := fun _ => .ok true
  identifyAdmissibleOutputs := fun _ _ =>
    .ok { outputsToAdmit := [0], coinsToRetain := [] }

theorem exists_root (hNodes : graph.nodes ≠ []) :
  ∃ root, graph.root = some root ∧ graph.nodes = root.values := by
  unfold TemporaryGraph.nodes at hNodes ⊢
  cases hRoot : graph.root with
  | none =>
    rw [hRoot] at hNodes
    exact absurd rfl hNodes
  | some root => exact ⟨root, rfl, rfl⟩

theorem spenderGraph_spends (hIndexes : indexes = [0] ∨ indexes = [0, 1]) :
  (spenderGraph indexes).nodes ≠ [] ∧ ∀ first ∈ (spenderGraph indexes).nodes,
      ∀ second ∈ (spenderGraph indexes).nodes,
        ∀ outpoint ∈ first.spends, outpoint ∈ second.spends →
            first.txid = second.txid := by
  rcases hIndexes with rfl | rfl
  · decide +kernel
  · decide +kernel

theorem validateGraphAnchor_spender : validateGraphAnchor acceptingWriter acceptingEngine
      (storageOf (spenderAppends [0, 1]))
      (spenderNode [0, 1]).graphID =
    .error (.conflictingSpend
      { txid := replicate 64 '0'
        outputIndex := 0 }) := by
  decide +kernel

theorem not_replays :
  ¬∀ (toBEEF : BEEFWriter)
      (maxNodesInGraph maxBytesInGraph : Nat)
      (storage : OverlayGASPStorage),
    Relation.ReflTransGen GraphStep
      { maxNodesInGraph := maxNodesInGraph
        maxBytesInGraph := maxBytesInGraph } storage →
    ∀ graphID root, (storage.graphs graphID).root = some root →
      SpendsDistinct root → (∃ beefs,
          ReplaysGraph toBEEF (storage.graphs graphID) root beefs) ∧
        NeverConflicts toBEEF storage graphID := by
  intro hAll
  rcases spenderGraph_spends [0, 1] (.inr rfl) with ⟨hNonempty, hSpends⟩
  rcases exists_root hNonempty with ⟨root, hRoot, hNodes⟩
  rw [hNodes] at hSpends
  unfold spenderGraph at hRoot
  rcases hAll acceptingWriter _ _ (storageOf (spenderAppends [0, 1]))
    (run_storageOf (spenderAppends [0, 1]))
    (spenderNode [0, 1]).graphID root hRoot hSpends with
    ⟨_, hNever⟩
  exact hNever acceptingEngine _ validateGraphAnchor_spender

theorem exists_of_isOk {ε : Type} {x : Except ε α} (hOk : x.isOk = true) :
  ∃ value, x = .ok value := by
  cases x with
  | error error => cases hOk
  | ok value => exact ⟨value, rfl⟩

theorem spenderGraph_condition :
  ((spenderGraph [0]).nodes.map (·.txid)).Nodup ∧ (∀ node ∈ (spenderGraph [0]).nodes,
      (getBEEFForNode acceptingWriter (spenderGraph [0]) node).isOk = true) ∧
    ∀ first ∈ (spenderGraph [0]).nodes, ∀ second ∈ (spenderGraph [0]).nodes,
        first ≠ second → ∀ outpoint ∈ second.spends,
            outpoint.txid = toLowerCase first.txid →
              ¬(outpoint ≠ first.outpoint ∨ some first =
                  (spenderGraph [0]).nodes.head?) := by
  decide +kernel

theorem replays_iff_spender :
  ∃ root, (∃ beefs, ReplaysGraph acceptingWriter (spenderGraph [0]) root beefs) ∧
    NeverConflicts acceptingWriter (storageOf (spenderAppends [0]))
      (spenderNode [0]).graphID := by
  rcases spenderGraph_spends [0] (.inl rfl) with ⟨hNonempty, hSpends⟩
  rcases exists_root hNonempty with ⟨root, hRoot, hNodes⟩
  rcases spenderGraph_condition with ⟨hOne, hWritten, hEarlier⟩
  rw [hNodes] at hSpends hOne hWritten hEarlier
  have hHead : root.values.head? = some root.value := by
    cases root with
    | node value children => rfl
  rw [hHead] at hEarlier
  refine ⟨root, ?_⟩
  unfold spenderGraph at hRoot hWritten ⊢
  apply (replays_iff acceptingWriter
      (run_storageOf (spenderAppends [0])) hRoot hSpends).mpr
  refine ⟨hOne, ?_, ?_⟩
  · intro node hNode
    exact exists_of_isOk (hWritten node hNode)
  · intro first hFirst second hSecond hNe outpoint hSpent hTxid hOther
    exfalso
    apply hEarlier first hFirst second hSecond hNe outpoint hSpent hTxid
    rcases hOther with hElsewhere | hFirstRoot
    · exact .inl hElsewhere
    · exact .inr (by rw [hFirstRoot])

end TsStack.Overlay
