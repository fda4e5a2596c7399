import TsStack.Templates.PushDrop

/-
  The `MultiPushDrop` template of `ts-templates`: fields that
  are pushed and dropped behind a lock that any one of a list
  of keys opens.

  The wallet's answers and the check that a text names a
  point of the curve are parameters.
-/

-- Checks

namespace TsStack

open OP

def MAX_LOCKING_KEYS : Nat := 120

def decodeScriptNum (data : Bytes) : Int :=
  match data.getLast? with
  | none => 0
  | some last =>
    let magnitude := LittleEndian.leToNat (data.dropLast ++ [last &&& 0x7f])
    if last &&& 0x80 ≠ 0 then -(magnitude : Int)
    else magnitude

def decodeScriptNumChunk (chunk : ScriptChunk) : Int :=
  if chunk.op = 0 then 0
  else if chunk.op = 0x4f then -1
  else if 0x51 ≤ chunk.op ∧ chunk.op ≤ 0x60 then (chunk.op : Int) - 0x50
  else decodeScriptNum (chunk.data.getD [])

namespace MultiPushDrop

def invalidScript (message : String) : JsError :=
  .error ("Invalid MultiPushDrop script: " ++ message)

def pushedData (chunk : ScriptChunk) : Option Bytes :=
  if chunk.op = OP_0 then some []
  else if chunk.op = OP_1NEGATE then some [0x81]
  else if OP_1 ≤ chunk.op ∧ chunk.op ≤ OP_16 then some [UInt8.ofNat (chunk.op - OP_1 + 1)]
  else chunk.data

/-
  `requireCanonicalPush`.  Data that is pushed with bytes is
  the chunk's own, so its bytes always agree.
-/
def requireCanonicalPush (chunk : Option ScriptChunk) (name : String) : Except JsError Bytes :=
  match chunk with
  | none => .error (invalidScript ("missing " ++ name))
  | some chunk =>
    match pushedData chunk with
    | none => .error (invalidScript (name ++ " is not a data push"))
    | some data =>
      let canonical := createMinimallyEncodedScriptChunk data
      if canonical.op ≠ chunk.op ∨ canonical.data.isNone ≠ chunk.data.isNone then
        .error (invalidScript (name ++ " is not minimally encoded"))
      else .ok data

/- `/^(?:02|03)[0-9a-fA-F]{64}$/`. -/
def isCompressedKeyText (value : JsString) : Bool :=
  value.length = 66 ∧ (value.take 2 = ['0', '2'] ∨ value.take 2 = ['0', '3']) ∧
    (value.drop 2).all fun c => (hexCharToValue c).isSome

def requireCompressedPublicKey (isPublicKey : JsString → Except JsError Bool) (value : JsString)
  (name : String) : Except JsError JsString := do
  if !isCompressedKeyText value then throw (.error (name ++ " must be a compressed public key"))
  let normalized := value.map Char.toLower
  let valid ← isPublicKey normalized
  if !valid then throw (.error (name ++ " must be a valid compressed public key"))
  return normalized

def requireProtocolID (protocolID : Nat × JsString) : Except JsError Unit :=
  if protocolID.1 > 2 ∨ protocolID.2.length < 5 ∨ protocolID.2.length > 400 then
    .error (.error ("protocolID must contain a security level from 0 to " ++
        "2 and a 5-400 character name"))
  else .ok ()

def requireKeyID (keyID : JsString) : Except JsError Unit :=
  if keyID.length < 1 ∨ keyID.length > 800 then
    .error (.error "keyID must be a 1-800 character string")
  else .ok ()

def requireCounterparty (isPublicKey : JsString → Except JsError Bool) (value : JsString)
  (name : String) : Except JsError JsString :=
  if value = "self".toList ∨ value = "anyone".toList then .ok value
  else requireCompressedPublicKey isPublicKey value name

/- `expectOpcode`, which leaves the chunks behind it. -/
def expectOpcode (opcode : Nat) (name : String) :
  List ScriptChunk → Except JsError (List ScriptChunk)
| [] => .error (invalidScript ("expected " ++ name))
| chunk :: rest =>
  if chunk.op ≠ opcode ∨ chunk.data ≠ none then .error (invalidScript ("expected " ++ name))
  else .ok rest

end MultiPushDrop

-- Decoding

namespace MultiPushDrop

/- `MultiPushDropDecoded`. -/
structure Decoded where
  lockingPublicKeys : List JsString
  fields : List Bytes
deriving DecidableEq, Repr

def decodeKeys (isPublicKey : JsString → Except JsError Bool) :
  List ScriptChunk → List JsString → Except JsError (List JsString × List ScriptChunk)
| [], keys => .ok (keys, [])
| chunk :: rest, keys =>
  if chunk.data.map List.length = some 33 then do
    if keys.length ≥ MAX_LOCKING_KEYS then
      throw (.error ("MultiPushDrop supports at most " ++ s!"{MAX_LOCKING_KEYS} locking keys"))
    let name := s!"public key chunk {keys.length}"
    let keyData ← requireCanonicalPush (some chunk) name
    let key ← requireCompressedPublicKey isPublicKey (toHex keyData) name
    decodeKeys isPublicKey rest (keys ++ [key])
  else .ok (keys, chunk :: rest)

/- The opcodes between the number of keys and the fields. -/
def checkOpcodes : List (Nat × String) :=
  [(OP_PICK, "OP_PICK"), (OP_PICK, "OP_PICK"), (OP_DEPTH, "OP_DEPTH"), (OP_1SUB, "OP_1SUB"),
    (OP_PICK, "OP_PICK"), (OP_SWAP, "OP_SWAP"), (OP_CHECKSIGVERIFY, "OP_CHECKSIGVERIFY")]

def expectOpcodes :
  List (Nat × String) → List ScriptChunk → Except JsError (List ScriptChunk)
| [], chunks => .ok chunks
| (opcode, name) :: opcodes, chunks => do
    let rest ← expectOpcode opcode name chunks
    expectOpcodes opcodes rest

def decodeFields :
  List ScriptChunk → List Bytes → Except JsError (List Bytes × List ScriptChunk)
| [], _ => .error (invalidScript "missing cleanup and final OP_TRUE")
| chunk :: rest, fields =>
  if chunk.isDrop then .ok (fields, chunk :: rest)
  else do
    let field ← requireCanonicalPush (some chunk) s!"field {fields.length}"
    decodeFields rest (fields ++ [field])

def expectDrops :
  Nat → List ScriptChunk → Except JsError (List ScriptChunk)
| 0, chunks => .ok chunks
| 1, chunks => expectOpcode OP_DROP "OP_DROP" chunks
| items + 2, chunks => do
    let rest ← expectOpcode OP_2DROP "OP_2DROP" chunks
    expectDrops items rest

def requireKeyCount (keys : List JsString) (chunk : Option ScriptChunk) : Except JsError Unit := do
  let _ ← requireCanonicalPush chunk "locking key count"
  let encodedKeyCount := (chunk.map decodeScriptNumChunk).getD 0
  if encodedKeyCount ≠ (keys.length : Int) then
    throw (invalidScript "locking key count does not match key pushes")

def decode (isPublicKey : JsString → Except JsError Bool)
  (chunks : List ScriptChunk) : Except JsError Decoded := do
  let (keys, chunks) ← decodeKeys isPublicKey chunks []
  if keys.isEmpty then throw (invalidScript "at least one locking key is required")
  if ¬keys.Nodup then throw (invalidScript "locking keys must be distinct")
  requireKeyCount keys chunks.head?
  let chunks ← expectOpcodes checkOpcodes chunks.tail
  let (fields, chunks) ← decodeFields chunks []
  let chunks ← expectDrops (fields.length + keys.length + 2) chunks
  let chunks ← expectOpcode OP_1 "final OP_TRUE" chunks
  if chunks ≠ [] then throw (invalidScript "trailing script operations are not allowed")
  return { lockingPublicKeys := keys, fields := fields }

end MultiPushDrop

-- Locking

namespace MultiPushDrop

def derivePublicKeys (isPublicKey : JsString → Except JsError Bool) (wallet : TemplateWallet)
  (protocolID : Nat × JsString) (keyID : JsString) :
  Nat → List JsString → Except JsError (List JsString)
| _, [] => .ok []
| index, counterparty :: rest => do
    let counterparty ← requireCounterparty isPublicKey counterparty s!"counterparties[{index}]"
    let publicKey ← wallet.getPublicKey
        { protocolID := protocolID
          keyID := keyID
          counterparty := counterparty } false
    let publicKey ← requireCompressedPublicKey isPublicKey publicKey s!"derived public key {index}"
    let publicKeys ← derivePublicKeys isPublicKey wallet protocolID keyID (index + 1) rest
    return publicKey :: publicKeys

def keyChunk (publicKey : JsString) : ScriptChunk where
  op := publicKey.length / 2
  data := some (hexPairs publicKey |>.getD [])

def checkChunks : List ScriptChunk :=
  checkOpcodes.map fun opcode => { op := opcode.1 }

def lockingChunks (publicKeys : List JsString) (fields : List Bytes) : List ScriptChunk :=
  publicKeys.map keyChunk ++ createMinimallyEncodedScriptChunk [UInt8.ofNat publicKeys.length] ::
      (checkChunks ++ (fields.map createMinimallyEncodedScriptChunk ++
          (dropChunks (fields.length + publicKeys.length + 2) ++ [{ op := OP_1 }])))

def lock
  (isPublicKey : JsString → Except JsError Bool) (wallet : TemplateWallet) (fields : List Bytes)
  (protocolID : Nat × JsString) (keyID : JsString) (counterparties : List JsString) :
  Except JsError PushDrop.Locked := do
  requireProtocolID protocolID
  requireKeyID keyID
  if counterparties.isEmpty then throw (.error "MultiPushDrop requires at least one counterparty.")
  if counterparties.length > MAX_LOCKING_KEYS then
    throw (.error ("MultiPushDrop supports at most " ++ s!"{MAX_LOCKING_KEYS} counterparties"))
  let publicKeys ← derivePublicKeys isPublicKey wallet protocolID keyID 0 counterparties
  if ¬publicKeys.Nodup then throw (.error "MultiPushDrop locking keys must be distinct")
  return {
    chunks := lockingChunks publicKeys fields
    fields := fields }

end MultiPushDrop

end TsStack
