import TsStack.Lib.MemoTable
import TsStack.Primitives.Hash

/-
  Merkle paths of `transaction/MerklePath.ts`: their
  construction and the two evaluators of their root.

  Offsets are natural numbers; the checks against safe
  integers are kept.
-/

-- Leaves and Offsets

namespace TsStack

structure MerklePathLeaf where
  offset : Nat
  hash : Option JsString := none
  txid : Option Bool := none
  duplicate : Option Bool := none
deriving DecidableEq, Repr

/- The fields of `MerklePath`. -/
structure MerklePath where
  blockHeight : Nat
  path : List (List MerklePathLeaf)
deriving DecidableEq, Repr

def offsetAtHeight (offset height : Nat) : Nat :=
  offset / 2 ^ height

def siblingOf (offset : Nat) : Nat :=
  if offset % 2 = 0 then offset + 1 else offset - 1

def sameNodeAtHeight (index maxOffset height : Nat) : Bool :=
  offsetAtHeight index height = offsetAtHeight maxOffset height

/- `offsetTreeHeight`: the length in binary digits. -/
def offsetTreeHeight (offset : Nat) : Nat :=
  if offset = 0 then 0 else Nat.log2 offset + 1

def assertOffset (offset : Nat) : Except JsError Unit :=
  if isSafeInteger offset then .ok ()
  else .error (.error "Invalid offset")

/- `hashPair`; a missing side is the empty string. -/
def hashPair (left right : Option JsString) :
  Except JsError JsString := do
  let bytes ← hexToUint8Array (left.getD [] ++ right.getD [])
  return toHex (hash256 bytes.reverse).reverse

/- `leaf?.hash == null || leaf.hash === ''`. -/
def MerklePathLeaf.presentHash (leaf : MerklePathLeaf) : Option JsString :=
  leaf.hash.filter (· ≠ [])

-- Uncached Evaluation

/- The step shared by both evaluators: `nextCachedHash`. -/
def nextCachedHash
  (workingHash : JsString) (leaf : Option MerklePathLeaf) (offset index height : Nat)
  (isLastOddNode : Bool) : Except JsError JsString :=
  match leaf with
  | none =>
    if isLastOddNode then hashPair (some workingHash) (some workingHash)
    else
      .error (.error ("Missing hash for index " ++ toString index ++
          " at height " ++ toString height))
  | some leaf =>
    if leaf.duplicate = some true then hashPair (some workingHash) (some workingHash)
    else if offset % 2 = 1 then hashPair leaf.hash (some workingHash)
    else hashPair (some workingHash) leaf.hash

namespace MerklePath

variable (merklePath : MerklePath)

def level (height : Nat) : List MerklePathLeaf :=
  merklePath.path.getD height []

def maxOffset : Nat :=
  (merklePath.level 0).foldl (fun max leaf => Nat.max max leaf.offset) 0

def treeHeight : Nat :=
  max merklePath.path.length (offsetTreeHeight merklePath.maxOffset)

def assertSingleTransactionOffset (path : List (List MerklePathLeaf)) :
  Except JsError Unit :=
  match path with
  | [[leaf]] =>
    if leaf.offset ≠ 0 then
      .error (.error ("Missing hash for index " ++ toString leaf.offset ++ " at height 0"))
    else .ok ()
  | _ => .ok ()

def isSingleTransaction (path : List (List MerklePathLeaf)) : Bool :=
  match path with
  | [[leaf]] => leaf.offset = 0
  | _ => false

def indexOf (txid : JsString) : Except JsError Nat :=
  match (merklePath.level 0).find? (fun leaf => leaf.hash = some txid) with
  | some leaf => .ok leaf.offset
  | none =>
    .error (.error ("Transaction ID " ++ String.ofList txid ++ " not found in the Merkle Path"))

/-
  Combine two child leaves into the leaf above them; `l` is the left child's offset at height `h`.
-/
def parentLeaf (offset h l : Nat) (hash0 : JsString)
  (leaf1 : Option MerklePathLeaf) : Except JsError (Option MerklePathLeaf) :=
  let doubled := do
    let hash ← hashPair (some hash0) (some hash0)
    return some { offset := offset, hash := some hash }
  match leaf1.bind (·.hash) with
  | none =>
    if leaf1.any (·.duplicate = some true) then doubled
    else if merklePath.path.length = 1 ∧ l = offsetAtHeight merklePath.maxOffset h then doubled
    else .ok none
  | some hash1 =>
    if leaf1.any (·.duplicate = some true) then doubled
    else do
      let hash ← hashPair (some hash1) (some hash0)
      return some { offset := offset, hash := some hash }

def findOrComputeLeaf (merklePath : MerklePath) :
  Nat → Nat → Except JsError (Option MerklePathLeaf)
| height, offset => do
    assertOffset offset
    match (merklePath.level height).find? (fun leaf => leaf.offset = offset) with
    | some leaf => return some leaf
    | none =>
      match height with
      | 0 => return none
      | h + 1 =>
        let l := offset * 2
        if ¬isSafeInteger l then return none
        else do
          let leaf0 ← findOrComputeLeaf merklePath h l
          match leaf0.bind (·.presentHash) with
          | none => return none
          | some hash0 =>
            let leaf1 ← findOrComputeLeaf merklePath h (l + 1)
            parentLeaf merklePath offset h l hash0 leaf1

/- The working hash of `computeRoot` after some heights. -/
def workingHash
  (merklePath : MerklePath) (index : Nat) (txid : JsString) : Nat → Except JsError JsString
| 0 => .ok txid
| height + 1 => do
    let working ← workingHash merklePath index txid height
    let offset := siblingOf (offsetAtHeight index height)
    let leaf ← merklePath.findOrComputeLeaf height offset
    nextCachedHash working leaf offset index height (merklePath.path.length = 1 &&
        sameNodeAtHeight index merklePath.maxOffset height)

/- `computeRoot`; without a txid the first leaf's is used. -/
def computeRoot (txid : Option JsString) :
  Except JsError JsString := do
  let txid ←
    match txid with
    | some txid => pure txid
    | none =>
      match (merklePath.level 0).findSome? (·.presentHash) with
      | some hash => pure hash
      | none => .error (.error "No valid leaf found in the Merkle Path")
  let index ← merklePath.indexOf txid
  assertSingleTransactionOffset merklePath.path
  if isSingleTransaction merklePath.path then return txid
  else merklePath.workingHash index txid merklePath.treeHeight

end MerklePath

-- Cached Evaluation

/- `hashCache`: leaves found or computed so far. -/
abbrev HashCache :=
  MemoTable (Nat × Nat) (Option MerklePathLeaf)

abbrev NodeHashCache :=
  MemoTable (Nat × Nat) JsString

def cachedMerkleRoot (nodeKey : Nat × Nat) (workingHash : JsString) (treeHeight : Nat)
  (nodeHashCache : NodeHashCache) : Except JsError (Option JsString) :=
  match nodeHashCache.get? nodeKey with
  | none => .ok none
  | some cachedNodeHash =>
    if cachedNodeHash ≠ workingHash then .error (.error "Mismatched roots")
    else
      match nodeHashCache.get? (treeHeight, 0) with
      | none => .error (.error "Mismatched roots")
      | some root => .ok (some root)

namespace MerklePath

def sourceLeaf (merklePath : MerklePath) (height offset : Nat) : Option MerklePathLeaf :=
  (merklePath.level height).reverse.find? (fun leaf => leaf.offset = offset)

def cachedFindLeaf (merklePath : MerklePath) :
  Nat → Nat → HashCache → Except JsError (Option MerklePathLeaf × HashCache)
| height, offset, hashCache =>
  let key := (height, offset)
  match hashCache.get? key with
  | some leaf => .ok (leaf, hashCache)
  | none =>
    match merklePath.sourceLeaf height offset with
    | some leaf => .ok (some leaf, hashCache.set key (some leaf))
    | none =>
      match height with
      | 0 => .ok (none, hashCache.set key none)
      | h + 1 =>
        let l := offset * 2
        if ¬isSafeInteger l then .ok (none, hashCache)
        else do
          let (leaf0, hashCache) ← cachedFindLeaf merklePath h l hashCache
          match leaf0.bind (·.presentHash) with
          | none => return (none, hashCache.set key none)
          | some hash0 => do
              let (leaf1, hashCache) ← cachedFindLeaf merklePath h (l + 1) hashCache
              let leaf ← parentLeaf merklePath offset h l hash0 leaf1
              return (leaf, hashCache.set key leaf)

/- The loop of `computeRootCached` from a height upwards. -/
def cachedRootLoop (merklePath : MerklePath) (index : Nat) :
  Nat → Nat → JsString → HashCache → NodeHashCache →
    Except JsError (JsString × HashCache × NodeHashCache)
| 0, height, working, hashCache, nodeHashCache =>
  .ok (working, hashCache, nodeHashCache.set (height, 0) working)
| remaining + 1, height, working, hashCache,
    nodeHashCache => do
    let nodeKey := (height, offsetAtHeight index height)
    let cachedRoot ← cachedMerkleRoot nodeKey working (height + (remaining + 1)) nodeHashCache
    match cachedRoot with
    | some root => return (root, hashCache, nodeHashCache)
    | none => do
        let nodeHashCache := nodeHashCache.set nodeKey working
        let offset := siblingOf (offsetAtHeight index height)
        let (leaf, hashCache) ← cachedFindLeaf merklePath height offset hashCache
        let working ← nextCachedHash working leaf offset index height (merklePath.path.length = 1 &&
              sameNodeAtHeight index merklePath.maxOffset height)
        cachedRootLoop merklePath index remaining (height + 1) working hashCache nodeHashCache

def computeRootCached (merklePath : MerklePath) (txid : Option JsString) (hashCache : HashCache)
  (nodeHashCache : NodeHashCache) :
  Except JsError (JsString × HashCache × NodeHashCache) := do
  let txid ←
    match txid with
    | some txid => pure txid
    | none =>
      match (merklePath.level 0).findSome? (·.presentHash) with
      | some hash => pure hash
      | none => .error (.typeError "Transaction ID is undefined")
  let index ← merklePath.indexOf txid
  assertSingleTransactionOffset merklePath.path
  if isSingleTransaction merklePath.path then return (txid, hashCache, nodeHashCache)
  else merklePath.cachedRootLoop index merklePath.treeHeight 0 txid hashCache nodeHashCache

-- Construction

def legalOffsetsAt (leaves : List MerklePathLeaf) (height : Nat) : List Nat :=
  (leaves.filter (·.duplicate ≠ some true)).map (fun leaf =>
        siblingOf (offsetAtHeight leaf.offset height))
    |>.reverse.dedup.reverse

/-
  The checks of one level.  `legal` is the set of legal
  offsets where the level is checked against it.
-/
def checkLevel (height : Nat) (legal : Option (List Nat)) :
  List Nat → List MerklePathLeaf → Except JsError Unit
| _, [] => .ok ()
| seen, leaf :: leaves => do
    assertOffset leaf.offset
    if leaf.offset ∈ seen then
      .error (.error ("Duplicate offset: " ++ toString leaf.offset ++
          ", at height: " ++ toString height))
    else if legal.any (leaf.offset ∉ ·) then
      .error (.error ("Invalid offset: " ++ toString leaf.offset ++
          ", at height: " ++ toString height ++ ", with legal offsets: " ++
          ", ".intercalate ((legal.getD []).map toString)))
    else checkLevel height legal (leaf.offset :: seen) leaves

def checkLevels (legalOffsetsOnly : Bool) (leaves : List MerklePathLeaf) :
  Nat → List (List MerklePathLeaf) → Except JsError Unit
| _, [] => .ok ()
| height, level :: levels => do
    if level = [] ∧ height = 0 then .error (.error ("Empty level at height: " ++ toString height))
    else
      checkLevel height (if height ≠ 0 ∧ legalOffsetsOnly then some (legalOffsetsAt leaves height)
        else none)
        [] level
      checkLevels legalOffsetsOnly leaves (height + 1) levels

/- The checks the constructor always makes. -/
def checkStructure (legalOffsetsOnly : Bool) (path : List (List MerklePathLeaf)) :
  Except JsError Unit := do
  if path.length = 0 ∨ path.length > 54 then
    .error (.error "Merkle Path must contain between 1 and 54 levels")
  else
    checkLevels legalOffsetsOnly (path.headD []) 0 path
    assertSingleTransactionOffset path

def checkRoots (merklePath : MerklePath) (root : Option JsString) :
  List MerklePathLeaf → HashCache → NodeHashCache → Except JsError Unit
| [], _, _ => .ok ()
| leaf :: leaves, hashCache, nodeHashCache => do
    let (computed, hashCache, nodeHashCache) ←
      merklePath.computeRootCached leaf.hash hashCache nodeHashCache
    if root.getD computed ≠ computed then .error (.error "Mismatched roots")
    else checkRoots merklePath (some (root.getD computed)) leaves hashCache nodeHashCache

/- The constructor. -/
def construct (blockHeight : Nat) (path : List (List MerklePathLeaf))
  (legalOffsetsOnly validateRoots : Bool) :
  Except JsError MerklePath := do
  checkStructure legalOffsetsOnly path
  let merklePath : MerklePath := { blockHeight := blockHeight, path := path }
  if validateRoots then checkRoots merklePath none (merklePath.level 0) [] []
  return merklePath

def coinbaseLevels (txid : JsString) : List (List MerklePathLeaf) :=
  [[{ offset := 0, hash := some txid, txid := some true }]]

def fromCoinbaseTxidAndHeight (txid : JsString) (height : Nat) : Except JsError MerklePath :=
  construct height (coinbaseLevels txid) true true

end MerklePath

end TsStack
