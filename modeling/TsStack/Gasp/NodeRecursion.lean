import TsStack.Overlay.RemoteSecurity

/-
  The recursion of `processIncomingNode` and
  `processOutgoingNode` over a graph that the answers choose.

  A call waits for one answer at a time, and answers come in
  any order.  The requests of a node are made at once: the
  workers of `runConcurrently` only delay them.
-/

-- Nodes

open List Option

namespace TsStack.Gasp

open Overlay (GASPNode parseTransaction toLowerCase)

def MAX_GRAPH_NODES : Nat := 10000

def MAX_RAW_TRANSACTION_HEX_LENGTH : Nat := 64 * 1024 * 1024

def MAX_METADATA_LENGTH : Nat := 2 * 1024 * 1024

def assertBoundedString (value : JsString) (label : String) (maxLength : Nat) :
  Except JsError Unit :=
  if value.length = 0 ∨ value.length > maxLength then .error (.typeError (label ++ " is invalid"))
  else .ok ()

def deconstruct36ByteStructure (outpoint : Outpoint) : Except JsError Unit := do
  assertIdentifier outpoint.txid "GASP outpoint txid"
  assertOutputIndex outpoint.outputIndex "GASP outpoint index"

/- The arguments of `requestNode`, and of `hydrateGASPNode`. -/
structure NodeRequest where
  graphID : Outpoint
  outpoint : Outpoint
deriving DecidableEq, Repr

/- The checks of `validateNode` against what was expected. -/
def assertExpected (node : GASPNode) (actualTxid : JsString) (expected : NodeRequest) :
  Except JsError Unit :=
  if node.graphID ≠ expected.graphID then
    .error (.typeError "GASP node graphID does not match the request")
  else if node.outputIndex ≠ expected.outpoint.outputIndex then
    .error (.typeError "GASP node output index does not match the request")
  else if toLowerCase actualTxid ≠ toLowerCase expected.outpoint.txid then
    .error (.typeError "GASP node transaction does not match the requested txid")
  else .ok ()

def assertMetadata (field : String) : Option JsString → Except JsError Unit
| none => .ok ()
| some value => assertBoundedString value ("GASP node " ++ field) MAX_METADATA_LENGTH

def assertInputs (inputs : List (Outpoint × JsString)) : Except JsError Unit :=
  if inputs.length > MAX_GRAPH_NODES then .error (.typeError "Invalid GASP node input metadata")
  else
    inputs.forM fun (outpoint, hash) => do
      deconstruct36ByteStructure outpoint
      assertBoundedString hash "GASP node input metadata hash" MAX_METADATA_LENGTH

def validateNode (node : GASPNode) (expected : Option NodeRequest) : Except JsError GASPNode := do
  deconstruct36ByteStructure node.graphID
  assertBoundedString node.rawTx "GASP raw transaction" MAX_RAW_TRANSACTION_HEX_LENGTH
  assertOutputIndex node.outputIndex "GASP node output index"
  match parseTransaction node.rawTx with
  | .error _ => .error (.typeError "GASP node raw transaction is invalid")
  | .ok parsed => do
    (expected.map (assertExpected node parsed.txid)).getD (.ok ())
    assertMetadata "proof" node.proof
    assertMetadata "txMetadata" node.txMetadata
    assertMetadata "outputMetadata" node.outputMetadata
    assertInputs (node.inputs.getD [])
    return node

/- The ids of the nodes of a response, with their metadata flags. -/
abbrev NodeResponse := List (Outpoint × Bool)

def validateNodeResponse (entries : NodeResponse) : Except JsError NodeResponse :=
  if entries.length > MAX_GRAPH_NODES then .error (.typeError "Oversized GASP node response")
  else do
    entries.forM fun entry => deconstruct36ByteStructure entry.1
    return entries

def nodeId (node : GASPNode) : Outpoint where
  txid := ((parseTransaction node.rawTx).toOption.map (·.txid)).getD []
  outputIndex := node.outputIndex

-- Steps

inductive Direction
| incoming
| outgoing

/- What a call of the recursion waits for: `appendToGraph` or `submitNode`, and so on. -/
inductive NodeCall
| visiting (node : GASPNode)
| finding (node : GASPNode)
| requesting (request : NodeRequest)

inductive NodeAnswer
| rejected
| done
| node (node : GASPNode)
| response (response : Option NodeResponse)

structure NodeGraph where
  seenNodes : List Outpoint := []
  visited : List GASPNode := []
  accepted : List (NodeRequest × GASPNode) := []
  calls : List NodeCall := []

namespace NodeGraph

variable (graph : NodeGraph) (node : GASPNode)

/- A call, up to its first `await`; one that returns or throws leaves nothing. -/
def process : NodeGraph :=
  match validateNode node none with
  | .error _ => graph
  | .ok node =>
    if nodeId node ∈ graph.seenNodes then graph
    else if graph.seenNodes.length ≥ MAX_GRAPH_NODES then graph
    else
      { graph with
        seenNodes := graph.seenNodes ++ [nodeId node]
        visited := graph.visited ++ [node]
        calls := graph.calls ++ [.visiting node] }

def request (response : Option NodeResponse) : NodeGraph :=
  match response.map validateNodeResponse with
  | some (.ok entries) =>
    { graph with
      calls := graph.calls ++ entries.map fun entry => .requesting ⟨node.graphID, entry.1⟩ }
  | _ => graph

def accept (request : NodeRequest) : NodeGraph :=
  match validateNode node (some request) with
  | .error _ => graph
  | .ok node => { graph with accepted := graph.accepted ++ [(request, node)] }.process node

def answer (direction : Direction) (graph : NodeGraph) : NodeCall → NodeAnswer → Option NodeGraph
| _, .rejected => some graph
| .requesting request, .node node => some (graph.accept node request)
| .visiting node, .done =>
  match direction with
  | .incoming => some { graph with calls := graph.calls ++ [.finding node] }
  | .outgoing => none
| .visiting node, .response response =>
  match direction with
  | .incoming => none
  | .outgoing => some (graph.request node response)
| .finding node, .response response => some (graph.request node response)
| _, _ => none

def step (direction : Direction) (graph : NodeGraph) (event : Nat × NodeAnswer) :
  Option NodeGraph :=
  graph.calls[event.1]?.bind fun call =>
    answer direction { graph with calls := graph.calls.eraseIdx event.1 } call event.2

/- `processOutgoingNode` returns at once in the unidirectional mode. -/
def start (direction : Direction) (unidirectional : Bool) (root : GASPNode) : NodeGraph :=
  match direction, unidirectional with
  | .outgoing, true => {}
  | _, _ => process {} root

end NodeGraph

-- The invariant

def Answers (request : NodeRequest) (node : GASPNode) : Prop :=
  node.graphID = request.graphID ∧ node.outputIndex = request.outpoint.outputIndex ∧
    ∃ parsed, parseTransaction node.rawTx = .ok parsed ∧
      toLowerCase parsed.txid = toLowerCase request.outpoint.txid

structure NodeGraph.Sound (root : GASPNode) (graph : NodeGraph) : Prop where
  seen : graph.seenNodes = graph.visited.map nodeId
  once : graph.seenNodes.Nodup
  bound : graph.seenNodes.length ≤ MAX_GRAPH_NODES
  accepted : ∀ entry ∈ graph.accepted, Answers entry.1 entry.2
  visited : ∀ node ∈ graph.visited, node = root ∨ ∃ request, (request, node) ∈ graph.accepted

def NodeCall.weight : NodeCall → Nat
| .visiting _ => MAX_GRAPH_NODES + 2
| .finding _ => MAX_GRAPH_NODES + 1
| .requesting _ => 1

/- The answers that the recursion can still get. -/
def NodeGraph.left (graph : NodeGraph) : Nat :=
  (MAX_GRAPH_NODES + 2) * (MAX_GRAPH_NODES - graph.seenNodes.length) +
    (graph.calls.map NodeCall.weight).sum

variable {graph next : NodeGraph} {root node checked : GASPNode} {direction : Direction}

theorem validateNode_eq_ok {expected : Option NodeRequest}
  (hRun : validateNode node expected = .ok checked) :
  checked = node ∧ ∀ request ∈ expected, Answers request node := by
  rcases bind_eq_ok_iff.mp hRun with ⟨_, _, hRun⟩
  rcases bind_eq_ok_iff.mp hRun with ⟨_, _, hRun⟩
  rcases bind_eq_ok_iff.mp hRun with ⟨_, _, hRun⟩
  cases hParse : parseTransaction node.rawTx with
  | error error => rw [hParse] at hRun; cases hRun
  | ok parsed =>
    rw [hParse] at hRun
    rcases bind_eq_ok_iff.mp hRun with ⟨_, hExpected, hRun⟩
    rcases bind_eq_ok_iff.mp hRun with ⟨_, _, hRun⟩
    rcases bind_eq_ok_iff.mp hRun with ⟨_, _, hRun⟩
    rcases bind_eq_ok_iff.mp hRun with ⟨_, _, hRun⟩
    rcases bind_eq_ok_iff.mp hRun with ⟨_, _, hRun⟩
    cases hRun
    refine ⟨rfl, fun request hReq => ?_⟩
    rw [hReq, map_some, getD_some, assertExpected] at hExpected
    split_ifs at hExpected with hGraph hIdx hTxid
    exact ⟨not_not.mp hGraph, not_not.mp hIdx, parsed, hParse, not_not.mp hTxid⟩

theorem NodeGraph.Sound.process (hSound : graph.Sound root)
  (hNode : node = root ∨ ∃ request, (request, node) ∈ graph.accepted) :
  (graph.process node).Sound root := by
  unfold NodeGraph.process
  split
  · exact hSound
  · next checked hValid =>
    rw [(validateNode_eq_ok hValid).1]
    split_ifs with hSeen hFull
    · exact hSound
    · exact hSound
    · constructor
      case seen => simp [hSound.seen]
      case once =>
        refine nodup_append.mpr ⟨hSound.once, by simp, fun other hOld last hLast hSame => ?_⟩
        rw [hSame, mem_singleton.mp hLast] at hOld
        exact hSeen hOld
      case bound =>
        rw [length_append, length_singleton]
        omega
      case accepted => exact hSound.accepted
      case visited =>
        intro other hIn
        rcases mem_concat_iff.mp hIn with hOld | hNew
        · exact hSound.visited other hOld
        · rw [hNew]
          exact hNode

theorem left_process (graph : NodeGraph) (node : GASPNode) :
  (graph.process node).left ≤ graph.left := by
  unfold NodeGraph.process
  split
  · exact le_refl _
  · split_ifs with hSeen hFull
    · exact le_refl _
    · exact le_refl _
    · have hSub : MAX_GRAPH_NODES - graph.seenNodes.length =
          MAX_GRAPH_NODES - (graph.seenNodes.length + 1) + 1 := by omega
      simp only [NodeGraph.left, length_append, length_singleton, map_append,
        map_cons, map_nil, sum_append, sum_singleton, NodeCall.weight]
      rw [hSub, Nat.mul_add]
      omega

theorem request_spec (graph : NodeGraph) (node : GASPNode) (response : Option NodeResponse) :
  (∀ root, graph.Sound root → (graph.request node response).Sound root) ∧
    (graph.request node response).left ≤ graph.left + MAX_GRAPH_NODES := by
  unfold NodeGraph.request
  split
  · next entries hValid =>
    rcases map_eq_some_iff.mp hValid with ⟨given, -, hRun⟩
    unfold validateNodeResponse at hRun
    split_ifs at hRun with hLong
    rcases bind_eq_ok_iff.mp hRun with ⟨_, _, hReturn⟩
    cases hReturn
    refine ⟨fun root hSound => ⟨hSound.seen, hSound.once, hSound.bound, hSound.accepted,
      hSound.visited⟩, ?_⟩
    simp only [NodeGraph.left, map_append, List.map_map, sum_append, Function.comp_def,
      NodeCall.weight, map_const', sum_replicate_nat]
    omega
  · exact ⟨fun _ hSound => hSound, Nat.le_add_right _ _⟩

theorem answer_spec {call : NodeCall} {answer : NodeAnswer}
  (hAnswer : graph.answer direction call answer = some next) :
  (graph.Sound root → next.Sound root) ∧ next.left < call.weight + graph.left := by
  cases answer with
  | rejected =>
    cases call <;> cases hAnswer <;> exact ⟨id, by simp [NodeCall.weight]⟩
  | done =>
    cases call with
    | visiting node =>
      cases direction with
      | incoming =>
        cases hAnswer
        refine ⟨fun hOld => ⟨hOld.seen, hOld.once, hOld.bound, hOld.accepted, hOld.visited⟩, ?_⟩
        simp [NodeGraph.left, NodeCall.weight]
        omega
      | outgoing => cases hAnswer
    | finding node => cases hAnswer
    | requesting request => cases hAnswer
  | node node =>
    cases call with
    | visiting node => cases hAnswer
    | finding node => cases hAnswer
    | requesting request =>
      cases hAnswer
      unfold NodeGraph.accept
      split
      · exact ⟨id, by simp [NodeCall.weight]⟩
      · next checked hValid =>
        rcases validateNode_eq_ok hValid with ⟨rfl, hAnswers⟩
        refine ⟨fun hOld => ?_, Nat.lt_of_le_of_lt (left_process _ _)
          (by simp [NodeGraph.left, NodeCall.weight])⟩
        apply NodeGraph.Sound.process
        · refine ⟨hOld.seen, hOld.once, hOld.bound, fun entry hIn => ?_, fun other hIn => ?_⟩
          · rcases mem_concat_iff.mp hIn with hPre | hNew
            · exact hOld.accepted entry hPre
            · rw [hNew]
              exact hAnswers request rfl
          · exact (hOld.visited other hIn).imp_right fun ⟨request, hPre⟩ =>
              ⟨request, mem_append_left _ hPre⟩
        · exact .inr ⟨request, mem_append_right _ (mem_singleton_self _)⟩
  | response response =>
    cases call with
    | visiting node =>
      cases direction with
      | incoming => cases hAnswer
      | outgoing =>
        cases hAnswer
        rcases request_spec graph node response with ⟨hKeeps, hLess⟩
        exact ⟨hKeeps root, by rw [NodeCall.weight]; omega⟩
    | finding node =>
      cases hAnswer
      rcases request_spec graph node response with ⟨hKeeps, hLess⟩
      exact ⟨hKeeps root, by rw [NodeCall.weight]; omega⟩
    | requesting request => cases hAnswer

theorem step_spec {event : Nat × NodeAnswer} (hStep : graph.step direction event = some next) :
  (graph.Sound root → next.Sound root) ∧ next.left < graph.left := by
  rcases bind_eq_some_iff.mp hStep with ⟨call, hCall, hAnswer⟩
  rcases List.getElem?_eq_some_iff.mp hCall with ⟨hIdx, rfl⟩
  rcases answer_spec hAnswer with ⟨hKeeps, hLess⟩
  have hSum := ((getElem_cons_eraseIdx_perm hIdx).map NodeCall.weight).sum_nat
  rw [map_cons, sum_cons] at hSum
  refine ⟨fun hOld => hKeeps ⟨hOld.seen, hOld.once, hOld.bound, hOld.accepted, hOld.visited⟩, ?_⟩
  refine Nat.lt_of_lt_of_eq hLess ?_
  rw [NodeGraph.left, NodeGraph.left, ← hSum]
  dsimp only
  omega

theorem start_spec (direction : Direction) (unidirectional : Bool) (root : GASPNode) :
  (NodeGraph.start direction unidirectional root).Sound root ∧
    (NodeGraph.start direction unidirectional root).left ≤
      (MAX_GRAPH_NODES + 2) * MAX_GRAPH_NODES := by
  have hEmpty : NodeGraph.Sound root {} := ⟨rfl, nodup_nil, Nat.zero_le _, nofun, nofun⟩
  unfold NodeGraph.start
  split
  · exact ⟨hEmpty, by simp [NodeGraph.left]⟩
  · exact ⟨hEmpty.process (.inl rfl), (left_process _ _).trans (by simp [NodeGraph.left])⟩

theorem run_spec {events : List (Nat × NodeAnswer)}
  (hRun : events.foldlM (NodeGraph.step direction) graph = some next) :
  (graph.Sound root → next.Sound root) ∧ events.length ≤ graph.left := by
  induction events generalizing graph with
  | nil =>
    cases hRun
    exact ⟨id, Nat.zero_le _⟩
  | cons event events ih =>
    rw [foldlM_cons] at hRun
    rcases bind_eq_some_iff.mp hRun with ⟨middle, hStep, hRest⟩
    rcases step_spec hStep with ⟨hKeeps, hLess⟩
    rcases ih hRest with ⟨hKept, hLen⟩
    rw [length_cons]
    exact ⟨fun hSound => hKept (hKeeps hSound), by omega⟩

/-
  In any run each node is appended or submitted once, no more nodes than the limit, and each of them
  the root or as it was requested; and the answers come to an end.
-/
theorem nodeGraph_bounded (direction : Direction) (unidirectional : Bool) (root : GASPNode) :
  (∀ (events : List (Nat × NodeAnswer)) (graph : NodeGraph),
    events.foldlM (NodeGraph.step direction) (NodeGraph.start direction unidirectional root) =
      some graph → graph.Sound root) ∧
  ∀ (events : List (Nat × NodeAnswer)) (graph : NodeGraph),
    events.foldlM (NodeGraph.step direction) (NodeGraph.start direction unidirectional root) =
      some graph → events.length ≤ (MAX_GRAPH_NODES + 2) * MAX_GRAPH_NODES := by
  rcases start_spec direction unidirectional root with ⟨hSound, hLeft⟩
  exact ⟨fun events graph hRun => (run_spec hRun).1 hSound,
    fun events graph hRun => (@run_spec _ graph root _ _ hRun).2.trans hLeft⟩

end TsStack.Gasp
