import TsStack.Script.Chunks

/-
  The `PushDrop` template of `script/templates/PushDrop.ts`:
  fields that are pushed and dropped beside the lock of one
  key.

  The wallet's answers and the reading of a public key are
  parameters.
-/

-- Pushes

open List

namespace TsStack

open OP

def dataPushChunk (data : Bytes) : ScriptChunk :=
  if data.length ≤ 75 then { op := data.length, data := some data }
  else if data.length ≤ 255 then { op := OP_PUSHDATA1, data := some data }
  else if data.length ≤ 65535 then { op := OP_PUSHDATA2, data := some data }
  else { op := OP_PUSHDATA4, data := some data }

def bytePushChunk (byte : UInt8) : ScriptChunk :=
  if byte = 0 then { op := 0 }
  else if 0 < byte ∧ byte ≤ 16 then { op := 0x50 + byte.toNat }
  else if byte = 0x81 then { op := 0x4f }
  else dataPushChunk [byte]

def createMinimallyEncodedScriptChunk :
  Bytes → ScriptChunk
| [] => { op := 0 }
| [byte] => bytePushChunk byte
| data => dataPushChunk data

def dropChunks : Nat → List ScriptChunk
| 0 => []
| 1 => [{ op := OP_DROP }]
| items + 2 => { op := OP_2DROP } :: dropChunks items

def ScriptChunk.isDrop (chunk : ScriptChunk) : Bool :=
  chunk.op = OP_DROP ∨ chunk.op = OP_2DROP

namespace PushDrop

/- Where the key stands in the script. -/
inductive LockPosition where
| before
| after
deriving DecidableEq, Repr

/- What `decode` returns. -/
structure Decoded (K : Type) where
  lockingPublicKey : K
  fields : List Bytes
deriving DecidableEq, Repr

def chunkField (chunk : ScriptChunk) : Bytes :=
  let data := chunk.data.getD []
  if data.length = 0 then
    if 80 ≤ chunk.op ∧ chunk.op ≤ 96 then [UInt8.ofNat (chunk.op - 80)]
    else if chunk.op = 0 then [0]
    else if chunk.op = 0x4f then [0x81]
    else data
  else data

def decodeFields : List ScriptChunk → List Bytes
| [] => []
| [chunk] => [chunkField chunk]
| chunk :: next :: rest =>
  if next.isDrop then [chunkField chunk]
  else chunkField chunk :: decodeFields (next :: rest)

end PushDrop

-- Locking

structure KeyArguments where
  protocolID : Nat × JsString
  keyID : JsString
  counterparty : JsString
deriving DecidableEq, Repr

structure TemplateWallet where
  getPublicKey : KeyArguments → Bool → Except JsError JsString
  createSignature : KeyArguments → Bytes → Except JsError Bytes

namespace PushDrop

structure Locked where
  chunks : List ScriptChunk
  fields : List Bytes
deriving DecidableEq, Repr

def lockChunks (publicKey : JsString) (data : Bytes) : List ScriptChunk :=
  [{ op := publicKey.length / 2, data := some data }, { op := OP_CHECKSIG }]

def pushDropChunks (fields : List Bytes) : List ScriptChunk :=
  fields.map createMinimallyEncodedScriptChunk ++ dropChunks fields.length

def lockingChunks (lock pushDrop : List ScriptChunk) :
  LockPosition → List ScriptChunk
| .before => lock ++ pushDrop
| .after => pushDrop ++ lock

def signFields
  (wallet : TemplateWallet) (fields : List Bytes) (key : KeyArguments) (includeSignature : Bool) :
  Except JsError (List Bytes) := do
  if includeSignature then
    let signature ← wallet.createSignature key fields.flatten
    return fields ++ [signature]
  else return fields

def lock (wallet : TemplateWallet) (fields : List Bytes) (key : KeyArguments)
  (forSelf includeSignature : Bool) (lockPosition : LockPosition) :
  Except JsError Locked := do
  let publicKey ← wallet.getPublicKey key forSelf
  let data ← hexToUint8Array publicKey
  let fields ← signFields wallet fields key includeSignature
  return {
    chunks := lockingChunks (lockChunks publicKey data) (pushDropChunks fields) lockPosition
    fields := fields }

-- Fields That Return

variable {fields : List Bytes}

end PushDrop

end TsStack
