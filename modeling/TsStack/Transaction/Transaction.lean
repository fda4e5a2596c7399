import Mathlib.Data.List.Forall2
import TsStack.Primitives.CompactSize
import TsStack.Transaction.MerklePath

/-
  Transactions of `transaction/Transaction.ts` and the graph
  their inputs' source transactions make.

  Transaction objects live in a heap and refer to each other
  by position, so that graphs may share nodes and be cyclic.
  Scripts stand for the bytes they serialize to, and merkle
  paths for their values.
-/

-- Transactions

namespace TsStack

open LittleEndian

abbrev TransactionRef := Nat

/- The fields of `TransactionInput` read here. -/
structure TransactionInput where
  sourceTXID : Option JsString := none
  sourceTransaction : Option TransactionRef := none
  sourceOutputIndex : Nat := 0
  unlockingScript : Option Bytes := none
  sequence : Option Nat := none
deriving DecidableEq, Repr

/- The fields of `TransactionOutput` read here. -/
structure TransactionOutput where
  satoshis : Option Nat := none
  lockingScript : Bytes := []
deriving DecidableEq, Repr

/- The fields of `Transaction` read here. -/
structure Transaction where
  version : Nat := 1
  inputs : List TransactionInput := []
  outputs : List TransactionOutput := []
  lockTime : Nat := 0
  merklePath : Option MerklePath := none
deriving DecidableEq, Repr

abbrev TransactionHeap := List Transaction

/- `requireTXID`: the bytes of an accepted id. -/
def requireTXID (value : JsString) : Except JsError Bytes :=
  if value.length = 64 ∧ value.all (fun c => (hexCharToValue c).isSome) then hexToUint8Array value
  else .error (.typeError ("sourceTXID must be a 32-byte hexadecimal " ++ "transaction ID."))

def requireUInt32 (value : Nat) (label : String) : Except JsError Nat :=
  if value ≤ 0xffffffff then .ok value
  else .error (.rangeError (label ++ " must be an unsigned 32-bit integer."))

def TransactionInput.sourceBytes (hash : TransactionRef → Except JsError Bytes)
  (input : TransactionInput) : Except JsError Bytes :=
  match input.sourceTXID with
  | some sourceTXID => do
      let bytes ← requireTXID sourceTXID
      return bytes.reverse
  | none =>
    match input.sourceTransaction with
    | none => .error (.error "sourceTransaction is undefined")
    | some source => hash source

/- One input of `#writeTransactionBody`. -/
def TransactionInput.write (hash : TransactionRef → Except JsError Bytes)
  (input : TransactionInput) : Except JsError Bytes := do
  let source ← input.sourceBytes hash
  let index ← requireUInt32 input.sourceOutputIndex "sourceOutputIndex"
  match input.unlockingScript with
  | none => .error (.error "unlockingScript is undefined")
  | some scriptBin => do
      let sequence ← requireUInt32 (input.sequence.getD 0xffffffff) "sequence"
      return source ++ leBytes 4 index ++
        varIntNum scriptBin.length ++ scriptBin ++ leBytes 4 sequence

/- One output of `#writeTransactionBody`. -/
def TransactionOutput.write (output : TransactionOutput) : Bytes :=
  leBytes 8 (output.satoshis.getD 0) ++
    varIntNum output.lockingScript.length ++ output.lockingScript

/- `#writeTransactionBody`. -/
def Transaction.write (hash : TransactionRef → Except JsError Bytes)
  (transaction : Transaction) : Except JsError Bytes := do
  let inputs ← transaction.inputs.mapM (·.write hash)
  return leBytes 4 transaction.version ++ varIntNum transaction.inputs.length ++ inputs.flatten ++
        varIntNum transaction.outputs.length ++
          (transaction.outputs.map (·.write)).flatten ++ leBytes 4 transaction.lockTime

namespace TransactionHeap

def missingObject : JsError :=
  .typeError "Cannot read properties of undefined"

def serializeWith (heap : TransactionHeap) (hash : TransactionRef → Except JsError Bytes)
  (ref : TransactionRef) : Except JsError Bytes :=
  match heap[ref]? with
  | none => .error missingObject
  | some transaction => transaction.write hash

/-
  `hash`.  A source transaction without an id is hashed in turn; a chain of more calls than there
  are objects is a cycle and overflows the call stack.
-/
def hash (heap : TransactionHeap) :
  Nat → TransactionRef → Except JsError Bytes
| 0, _ => .error (.rangeError "Maximum call stack size exceeded")
| depth + 1, ref => do
    let bytes ← heap.serializeWith (hash heap depth) ref
    return hash256 bytes

/- `toBinary` and `transactionSerializationIdentity`. -/
def serialize (heap : TransactionHeap) (ref : TransactionRef) : Except JsError Bytes :=
  heap.serializeWith (heap.hash heap.length) ref

/- `id('hex')`. -/
def id (heap : TransactionHeap) (ref : TransactionRef) : Except JsError JsString := do
  let bytes ← heap.serialize ref
  return toHex (hash256 bytes).reverse

end TransactionHeap

/- A hexadecimal id is read back to its bytes. -/
theorem requireTXID_toHex {bytes : Bytes} (hLen : bytes.length = 32) :
  requireTXID (toHex bytes) = .ok bytes := by
  have hDigits : (toHex bytes).all (fun c => (hexCharToValue c).isSome) = true := by
    rw [List.all_eq_true]
    exact fun _ hMem => isSome_of_mem_toHex hMem
  unfold requireTXID
  rw [if_pos ⟨by rw [length_toHex]; omega, hDigits⟩]
  exact hexToUint8Array_toHex bytes

/- One computation succeeds whenever another does. -/
def HashRefines (hash hash' : TransactionRef → Except JsError Bytes) :
  Prop :=
  ∀ ref bytes, hash ref = .ok bytes → hash' ref = .ok bytes

/- The results of a traversal that does not throw. -/
theorem forall₂_of_mapM {α β : Type} {f : α → Except JsError β} {xs : List α} {ys : List β}
  (hMap : xs.mapM f = .ok ys) : List.Forall₂ (fun x y => f x = .ok y) xs ys := by
  induction xs generalizing ys with
  | nil =>
    cases hMap
    exact .nil
  | cons x xs ih =>
    rw [List.mapM_cons, bind_eq_ok_iff] at hMap
    rcases hMap with ⟨y, hy, hMap⟩
    rcases bind_eq_ok_iff.mp hMap with ⟨tail, hTail, hYs⟩
    cases hYs
    exact .cons hy (ih hTail)

namespace TransactionHeap

/- A stack frame of `materializeSourceTXIDs`. -/
structure MaterializeFrame where
  tx : TransactionRef
  expanded : Bool
deriving DecidableEq, Repr

/- The same objects, with the same serializations. -/
structure Extends (heap heap' : TransactionHeap) : Prop where
  length : heap'.length = heap.length
  serializeWith : ∀ depth, HashRefines (heap.serializeWith (heap.hash depth))
        (heap'.serializeWith (heap'.hash depth))

end TransactionHeap

end TsStack
