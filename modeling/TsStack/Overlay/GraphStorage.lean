import TsStack.Lib.RoseTree
import TsStack.Overlay.RemoteSecurity
import TsStack.Transaction.MerklePathBinary

/-
  The temporary graphs of `OverlayGASPStorage`.

  A graph is the tree of its nodes under the root; the refs
  of the source are the nodes of the trees by their graph
  and outpoint.  A BEEF is modeled by the transaction it is
  written from, with the sources that are linked; what the
  writer rejects is a parameter.
-/

-- Graphs

namespace TsStack.Overlay

open Gasp (Outpoint)

def DEFAULT_MAX_NODES_IN_GRAPH : Nat := 2048

/- The fields of a `GraphNode` other than its links. -/
structure GraphNode where
  txid : JsString
  graphID : Outpoint
  rawTx : JsString
  outputIndex : Nat
  proof : Option JsString
  txMetadata : Option JsString
  outputMetadata : Option JsString
  inputs : Option (List (Outpoint × JsString))
deriving DecidableEq, Repr

/- The id of a node: `txid.outputIndex`. -/
def GraphNode.nodeID (node : GraphNode) : Outpoint where
  txid := node.txid
  outputIndex := node.outputIndex

structure TemporaryGraph where
  root : Option (RoseTree GraphNode) := none
  nodeCount : Nat := 0
  byteCount : Nat := 0

structure OverlayGASPStorage where
  maxNodesInGraph : Nat := DEFAULT_MAX_NODES_IN_GRAPH
  maxBytesInGraph : Nat := 64 * 1024 * 1024
  graphs : Outpoint → TemporaryGraph := fun _ => {}

def TemporaryGraph.nodes (graph : TemporaryGraph) : List GraphNode :=
  match graph.root with
  | none => []
  | some root => root.values

def graphNode (graph : TemporaryGraph) (nodeID : Outpoint) : Option GraphNode :=
  graph.nodes.find? (·.nodeID = nodeID)

def outpointLength (outpoint : Outpoint) : Nat :=
  outpoint.txid.length + 1 + (toString outpoint.outputIndex).length

def nodeByteLength (node : GASPNode) : Nat :=
  let length := outpointLength node.graphID + node.rawTx.length + 16
  let length := length + (node.proof.getD []).length
  let length := length + (node.txMetadata.getD []).length
  let length := length + (node.outputMetadata.getD []).length
  (node.inputs.getD []).foldl (fun length (outpoint, hash) =>
      length + outpointLength outpoint + hash.length)
    length

def inputOutpoint (input : TransactionInput) : Outpoint where
  txid := toLowerCase (input.sourceTXID.getD [])
  outputIndex := input.sourceOutputIndex

def checkParentInput
  (parent : GraphNode) (txid : JsString) (outputIndex : Nat) : Except JsError Unit := do
  let parsed ← parseTransaction parent.rawTx
  if parsed.transaction.inputs.any fun input =>
      inputOutpoint input =
        { txid := toLowerCase txid
          outputIndex := outputIndex } then
    return
  else throw (.error ("The GASP child node is not an input of its " ++ "declared parent"))

def linkNode (graph : TemporaryGraph) (node : GraphNode) :
  Option Outpoint → Except JsError (RoseTree GraphNode)
| none =>
  if node.nodeID ≠ node.graphID then
    .error (.error "The root GASP node does not match its graph ID")
  else
    match graph.root with
    | none => .ok (.node node [])
    | some _ => .error (.error "The GASP graph already contains this node")
| some spentBy => do
    assertOutpoint spentBy "GASP parent outpoint"
    match graph.root, graphNode graph spentBy with
    | some root, some parent =>
      match graphNode graph node.nodeID with
      | some _ => .error (.error "The GASP graph already contains this node")
      | none => do
          checkParentInput parent node.txid node.outputIndex
          return RoseTree.graft (·.nodeID = spentBy) (.node node []) root
    | _, _ =>
      .error (.error ("Parent node with GraphID " ++ String.ofList spentBy.txid ++ "." ++
            toString spentBy.outputIndex ++ " not found"))

/- `MerklePath.fromHex`. -/
def parseMerklePath (proof : JsString) : Except JsError MerklePath := do
  let bytes ← hexToUint8Array proof
  MerklePath.fromBinary bytes true true

/- The checks of `appendToGraph` before the node is linked. -/
def checkNode (storage : OverlayGASPStorage) (tx : GASPNode)
  (parsed : ParsedTransaction) : Except JsError Unit := do
  let graph := storage.graphs tx.graphID
  assertGASPNode tx tx.graphID parsed.txid tx.outputIndex
  if tx.outputIndex ≥ parsed.transaction.outputs.length then
    throw (.error ("GASP node output index does not exist in its " ++ "transaction"))
  if parsed.transaction.inputs.length > storage.maxNodesInGraph then
    throw (.error ("GASP transaction input count exceeds the graph " ++ "node limit"))
  if graph.nodeCount ≥ storage.maxNodesInGraph then
    throw (.error ("The max number of nodes in transaction graph has " ++ "been reached!"))
  if graph.byteCount + nodeByteLength tx > storage.maxBytesInGraph then
    throw (.error ("The max byte size of the transaction graph has " ++ "been reached!"))
  match tx.proof with
  | none => return
  | some proof => do
      let _ ← parseMerklePath proof
      return

def appendToGraph (storage : OverlayGASPStorage) (tx : GASPNode) (spentBy : Option Outpoint) :
  Except JsError OverlayGASPStorage := do
  let graph := storage.graphs tx.graphID
  let parsed ← parseTransaction tx.rawTx
  checkNode storage tx parsed
  let node : GraphNode :=
    { txid := parsed.txid
      graphID := tx.graphID
      rawTx := tx.rawTx
      outputIndex := tx.outputIndex
      proof := tx.proof
      txMetadata := tx.txMetadata
      outputMetadata := tx.outputMetadata
      inputs := tx.inputs }
  let root ← linkNode graph node spentBy
  return { storage with
    graphs := Function.update storage.graphs tx.graphID
        { root := some root
          nodeCount := graph.nodeCount + 1
          byteCount := graph.byteCount + nodeByteLength tx } }

def discardGraph (storage : OverlayGASPStorage) (graphID : Outpoint) : OverlayGASPStorage :=
  { storage with
    graphs := Function.update storage.graphs graphID {} }

-- BEEFs

inductive HydratedTransaction where
| mk
    (parsed : ParsedTransaction) (merklePath : Option MerklePath)
    (sources : List HydratedTransaction)

def HydratedTransaction.parsed :
  HydratedTransaction → ParsedTransaction
| .mk parsed _ _ => parsed

def callStackError : JsError :=
  .rangeError "Maximum call stack size exceeded"

def missingInputError : JsError :=
  .error ("Required input node for unproven parent not found " ++
      "in temporary graph store. Ensure, for every parent " ++
      "of any given already-proven node (kept for " ++
      "Overlay-specific historical reasons), that a proof " ++
      "is also provided on those inputs. While implicitly " ++
      "they are valid by virtue of their descendents being " ++
      "proven in the blockchain, BEEF serialization will " ++
      "still fail when winding forward the topical UTXO " ++ "set histories during sync.")

/-
  `hydrator`.  A chain of more calls than there are nodes is a cycle and overflows the call stack.
-/
def hydrator (graph : TemporaryGraph) :
  Nat → GraphNode → Except JsError HydratedTransaction
| 0, _ => .error callStackError
| depth + 1, node => do
    let parsed ← parseTransaction node.rawTx
    match node.proof.filter (· ≠ []) with
    | some proof => do
        let merklePath ← parseMerklePath proof
        return .mk parsed (some merklePath) []
    | none => do
        let sources ←
          parsed.transaction.inputs.mapM fun input =>
            let source : Outpoint :=
              { txid := input.sourceTXID.getD []
                outputIndex := input.sourceOutputIndex }
            match graphNode graph source with
            | none => .error missingInputError
            | some found => hydrator graph depth found
        return .mk parsed none sources

/- What `toBEEF` rejects of a transaction. -/
abbrev BEEFWriter :=
  HydratedTransaction → Except JsError Unit

def getBEEFForNode (toBEEF : BEEFWriter) (graph : TemporaryGraph) (node : GraphNode) :
  Except JsError HydratedTransaction := do
  let finalTX ← hydrator graph graph.nodes.length node
  toBEEF finalTX
  return finalTX

/- A frame of the stack of `computeOrderedBEEFsForGraph`. -/
structure GraphFrame where
  tree : RoseTree GraphNode
  expanded : Bool

/- The locals of `computeOrderedBEEFsForGraph`. -/
structure GraphWalk where
  complete : List Outpoint := []
  visiting : List Outpoint := []
  stack : List GraphFrame
  beefs : List HydratedTransaction := []

def GraphWalk.leave
  (getBEEF : GraphNode → Except JsError HydratedTransaction) (walk : GraphWalk) (node : GraphNode)
  (stack : List GraphFrame) : Except JsError GraphWalk := do
  let visiting := walk.visiting.filter (· ≠ node.nodeID)
  if node.nodeID ∈ walk.complete then return { walk with visiting := visiting, stack := stack }
  else do
    let beef ← getBEEF node
    pure
      { complete := node.nodeID :: walk.complete
        visiting := visiting
        stack := stack
        beefs := walk.beefs ++ [beef] }

def GraphWalk.enter (walk : GraphWalk) (tree : RoseTree GraphNode)
  (stack : List GraphFrame) : Except JsError GraphWalk :=
  if tree.value.nodeID ∈ walk.complete then .ok { walk with stack := stack }
  else if tree.value.nodeID ∈ walk.visiting then
    .error (.error "Cycle detected in temporary GASP graph")
  else
    .ok { walk with
      visiting := tree.value.nodeID :: walk.visiting
      stack := tree.children.map (fun child => { tree := child, expanded := false }) ++
          { tree := tree, expanded := true } :: stack }

/- The turns of the loop, by their number. -/
def GraphWalk.run (getBEEF : GraphNode → Except JsError HydratedTransaction) :
  Nat → GraphWalk → Except JsError (List HydratedTransaction)
| 0, walk => .ok walk.beefs
| turns + 1, walk =>
  match walk.stack with
  | [] => .ok walk.beefs
  | current :: stack => do
      let next ←
        if current.expanded then walk.leave getBEEF current.tree.value stack
        else walk.enter current.tree stack
      next.run getBEEF turns

/- `computeOrderedBEEFsForGraph`.  Each node is entered and left at most once. -/
def computeOrderedBEEFsForGraph (toBEEF : BEEFWriter) (graph : TemporaryGraph) :
  Except JsError (List HydratedTransaction) :=
  match graph.root with
  | none => .error (.error "Unable to find root node in graph for finalization!")
  | some root =>
    GraphWalk.run (getBEEFForNode toBEEF graph) (2 * graph.nodes.length)
      { stack := [{ tree := root, expanded := false }] }

-- Anchors

/-
  What a node asks of its engine: the reader of BEEFs, the
  verification of a transaction and the topic manager.
-/
structure GraphEngine where
  fromBEEF : HydratedTransaction → Except JsError Unit
  verify : HydratedTransaction → Except JsError Bool
  identifyAdmissibleOutputs : HydratedTransaction → List Nat → Except JsError AdmittanceInstructions

/- Why `validateGraphAnchor` throws. -/
inductive AnchorError where
| conflictingSpend (outpoint : Outpoint)
| other (error : JsError)
deriving DecidableEq, Repr

def AnchorError.thrown : AnchorError → JsError
| .conflictingSpend outpoint =>
  .error ("Historical GASP graph contains a conflicting " ++
      "spend of " ++ String.ofList outpoint.txid ++ "." ++ toString outpoint.outputIndex)
| .other error => error

/- Another function of the engine or the storage throws. -/
def anchored {α : Type} (result : Except JsError α) : Except AnchorError α :=
  result.mapError .other

def previousCoinIndexes (transaction : Transaction) (coins : List Outpoint) : List Nat :=
  (transaction.inputs.zipIdx.filter fun (input, _) =>
    input.sourceTXID.getD [] ≠ [] && inputOutpoint input ∈ coins).map (·.2)

/- The sets `validateGraphAnchor` keeps. -/
structure AnchorSets where
  coins : List Outpoint := []
  spentOutpoints : List Outpoint := []

/- The loop over the inputs in `admitHistoricalBEEF`. -/
def spendInputs (spentOutpoints : List Outpoint) :
  List TransactionInput → Except AnchorError (List Outpoint)
| [] => .ok []
| input :: inputs =>
  if input.sourceTXID.getD [] = [] then
    .error (.other (.error ("Historical GASP transaction contains an " ++ "unresolved input")))
  else if inputOutpoint input ∈ spentOutpoints then .error (.conflictingSpend (inputOutpoint input))
  else do
    let outpoints ← spendInputs spentOutpoints inputs
    return inputOutpoint input :: outpoints

def admitHistoricalBEEF (engine : GraphEngine) (sets : AnchorSets) (beef : HydratedTransaction) :
  Except AnchorError AnchorSets := do
  anchored (engine.fromBEEF beef)
  let tx := beef.parsed.transaction
  let previousCoins := previousCoinIndexes tx sets.coins
  let inputOutpoints ← spendInputs sets.spentOutpoints tx.inputs
  let instructions ← anchored (engine.identifyAdmissibleOutputs beef previousCoins)
  let admitted ← anchored (validateAdmittanceInstructions instructions tx previousCoins)
  pure
    { coins := sets.coins.filter (· ∉ inputOutpoints) ++
          admitted.outputsToAdmit.map fun outputIndex =>
            { txid := toLowerCase beef.parsed.txid
              outputIndex := outputIndex }
      spentOutpoints := sets.spentOutpoints ++ inputOutpoints }

/- The verification of the root in `validateGraphAnchor`. -/
def verifyRoot (engine : GraphEngine) (beef : HydratedTransaction) :
  Except AnchorError Unit := do
  anchored (engine.fromBEEF beef)
  let isBitcoinValid ← anchored (engine.verify beef)
  if isBitcoinValid then return
  else
    throw (.other (.error ("The graph is not well-anchored according to the " ++
        "rules of Bitcoin.")))

/- The admittance of the root in `validateGraphAnchor`. -/
def checkAdmittance (sets : AnchorSets) (graphID : Outpoint) : Except AnchorError Unit :=
  if graphID ∈ sets.coins then .ok ()
  else
    .error (.other (.error ("This graph did not result in topical admittance " ++
        "of the root node. Rejecting.")))

def validateGraphAnchor (toBEEF : BEEFWriter) (engine : GraphEngine) (storage : OverlayGASPStorage)
  (graphID : Outpoint) : Except AnchorError Unit :=
  let graph := storage.graphs graphID
  match graph.root with
  | none =>
    .error (.other (.error ("Graph node with ID " ++ String.ofList graphID.txid ++ "." ++
          toString graphID.outputIndex ++ " not found")))
  | some root => do
      let beef ← anchored (getBEEFForNode toBEEF graph root.value)
      verifyRoot engine beef
      let beefs ← anchored (computeOrderedBEEFsForGraph toBEEF graph)
      let sets ← beefs.foldlM (admitHistoricalBEEF engine) {}
      checkAdmittance sets graphID

end TsStack.Overlay
