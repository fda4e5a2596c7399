import TsStack.Transaction.MerklePathSort

/-
  Combining Merkle paths and trimming the leaves their
  transactions do not need.
-/

-- Trimming

namespace TsStack.MerklePath

/- The error of reading a property of a missing object. -/
def undefinedError : JsError :=
  .typeError "Cannot read properties of undefined"

def pushIfNew (v : Nat) (a : List Nat) : List Nat :=
  if a.getLast? = some v then a else a ++ [v]

/- `dropOffsetsFromLevel`; the last offset goes first. -/
def dropOffsetsFromLevel
  (dropOffsets : List Nat) (level : List MerklePathLeaf) : List MerklePathLeaf :=
  dropOffsets.foldr (fun offset level => level.eraseP (fun n => n.offset = offset)) level

def nextComputedOffsets (cos : List Nat) : List Nat :=
  cos.foldl (fun ncos o => pushIfNew (offsetAtHeight o 1) ncos) []

/- The neighbor in the level `trim` takes for a peer. -/
def peerAt (level : List MerklePathLeaf) (n : MerklePathLeaf) (l : Nat) : Option MerklePathLeaf :=
  if n.offset % 2 = 1 then if l = 0 then none else level[l - 1]?
  else level[l + 1]?

/-
  One step over level zero: the offsets computable at level
  one and the offsets to drop from level zero.
-/
def trimLeaf
  (level : List MerklePathLeaf) (offsets : List Nat × List Nat) (entry : MerklePathLeaf × Nat) :
  Except JsError (List Nat × List Nat) :=
  let (n, l) := entry
  let (computedOffsets, dropOffsets) := offsets
  if n.txid = some true then
    .ok (pushIfNew (offsetAtHeight n.offset 1) computedOffsets, dropOffsets)
  else
    match peerAt level n l with
    | none => .error undefinedError
    | some peer =>
      if peer.txid = some true then .ok (computedOffsets, dropOffsets)
      else .ok (computedOffsets, pushIfNew peer.offset dropOffsets)

def trimLevels :
  List Nat → List (List MerklePathLeaf) → List (List MerklePathLeaf)
| _, [] => []
| computedOffsets, level :: levels =>
  dropOffsetsFromLevel computedOffsets level ::
    trimLevels (nextComputedOffsets computedOffsets) levels

def trim (merklePath : MerklePath) :
  Except JsError MerklePath :=
  match merklePath.path.map sortLevel with
  | [] => .error undefinedError
  | level :: levels => do
      let (computedOffsets, dropOffsets) ← level.zipIdx.foldlM (trimLeaf level) ([], [])
      return { merklePath with
        path := dropOffsetsFromLevel dropOffsets level :: trimLevels computedOffsets levels }

-- Combining

/- Flag the first leaf that satisfies `p`. -/
def flagFirst (p : MerklePathLeaf → Bool) :
  List MerklePathLeaf → List MerklePathLeaf
| [] => []
| leaf :: leaves =>
  if p leaf then { leaf with txid := some true } :: leaves
  else leaf :: flagFirst p leaves

def combineLeaf
  (combined : List MerklePathLeaf) (otherLeaf : MerklePathLeaf) : List MerklePathLeaf :=
  if combined.any (·.offset = otherLeaf.offset) then
    if otherLeaf.txid.isSome then flagFirst (fun leaf => leaf.offset = otherLeaf.offset) combined
    else combined
  else combined ++ [otherLeaf]

/- The levels of `combinedPath`. -/
def combineLevels :
  List (List MerklePathLeaf) → List (List MerklePathLeaf) →
      Except JsError (List (List MerklePathLeaf))
| [], _ => .ok []
| _ :: _, [] => .error (.typeError "other.path[h] is not iterable")
| level :: levels, otherLevel :: otherLevels => do
    let combined ← combineLevels levels otherLevels
    return otherLevel.foldl combineLeaf level :: combined

def combine (merklePath other : MerklePath) :
  Except JsError MerklePath :=
  if merklePath.blockHeight ≠ other.blockHeight then
    .error (.error ("You cannot combine paths which do not have the " ++ "same block height."))
  else do
    let root1 ← merklePath.computeRoot none
    let root2 ← other.computeRoot none
    if root1 ≠ root2 then
      .error (.error ("You cannot combine paths which do not have the " ++ "same root."))
    else do
      let combinedPath ← combineLevels merklePath.path other.path
      let trimmed ← trim { merklePath with path := combinedPath }
      let root ← trimmed.computeRoot none
      if root ≠ root1 then
        .error (.error ("You cannot combine paths which do not have " ++ "the same root."))
      else return trimmed

theorem dropOffsetsFromLevel_sublist (dropOffsets : List Nat) (level : List MerklePathLeaf) :
  (dropOffsetsFromLevel dropOffsets level).Sublist
    level := by
  induction dropOffsets with
  | nil => exact List.Sublist.refl level
  | cons offset dropOffsets ih => exact List.eraseP_sublist.trans ih

theorem level_zero_cons
  (blockHeight : Nat) (level : List MerklePathLeaf) (levels : List (List MerklePathLeaf)) :
  (mk blockHeight (level :: levels)).level 0 = level :=
  rfl

end TsStack.MerklePath
