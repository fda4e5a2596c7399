import TsStack.Lib.LittleEndian
import TsStack.Primitives.Hash

/-
  Block headers of `chaintracks/util/blockHeaderUtilities.ts`
  with the checks of `validateIncomingHeader`.

  A chainwork string is modeled by its number, and a header
  by its fields, each of the type the source declares.
-/

-- Headers and Errors

namespace TsStack.Chaintracks

open LittleEndian

/- The errors thrown by the block header storage. -/
inductive ChaintracksError where
| error (message : String)
| typeError (message : String)
| invalidParameter (parameter mustBe : String)
| invalidOperation (message : String)
deriving DecidableEq, Repr

inductive Chain where
| main
| test
| stn
| ttn
| tstn
| regtest
| mock
deriving DecidableEq, Repr

structure BlockHeader where
  version : Nat
  previousHash : JsString
  merkleRoot : JsString
  time : Nat
  bits : Nat
  nonce : Nat
  height : Nat
  hash : JsString
deriving DecidableEq, Repr

def isHex32Bytes (value : JsString) : Bool :=
  value.length = 64 ∧ value.all (fun c => (hexCharToValue c).isSome)

/- The bytes of hexadecimal text; accepted text has some. -/
def hexBytes (value : JsString) : Bytes :=
  (hexPairs value).getD []

def serializeBaseBlockHeader (header : BlockHeader) : Bytes :=
  leBytes 4 header.version ++ (hexBytes header.previousHash).reverse ++
      (hexBytes header.merkleRoot).reverse ++
        leBytes 4 header.time ++ leBytes 4 header.bits ++ leBytes 4 header.nonce

def blockHash (header : BlockHeader) : JsString :=
  toHex (hash256 (serializeBaseBlockHeader header)).reverse

-- Targets and Work

def convertBitsToTarget (bits : Nat) : Nat :=
  let shift := bits / 2 ^ 24 % 256
  let data := bits % 2 ^ 23
  if shift ≤ 3 then data / 2 ^ (8 * (3 - shift))
  else data * 2 ^ (8 * (shift - 3))

def proofOfWorkLimitBits (chain : Chain) : Nat :=
  if chain = .regtest then 0x207fffff else 0x1d00ffff

def validateCompactTarget (bits : Nat) (chain : Chain) : Except ChaintracksError Nat :=
  let size := bits / 2 ^ 24
  let word := bits % 2 ^ 23
  let negative := word ≠ 0 ∧ bits / 2 ^ 23 % 2 = 1
  let overflow := word ≠ 0 ∧ (size > 34 ∨ (word > 0xff ∧ size > 33) ∨ (word > 0xffff ∧ size > 32))
  if bits > 0xffffffff then .error (.error "Block target encoding is invalid.")
  else if word = 0 ∨ negative ∨ overflow then .error (.error "Block target encoding is invalid.")
  else if convertBitsToTarget bits > convertBitsToTarget (proofOfWorkLimitBits chain) then
    .error (.error "Block target exceeds the proof-of-work limit.")
  else .ok (convertBitsToTarget bits)

def targetWork (target : Nat) : Nat :=
  (2 ^ 256 - 1 - target) / (target + 1) + 1

def convertBitsToWork (bits : Nat) (chain : Chain) : Except ChaintracksError Nat := do
  let target ← validateCompactTarget bits chain
  return targetWork target

def validateWork (work : Nat) (name : String) : Except ChaintracksError Nat :=
  if work < 2 ^ 256 then .ok work
  else .error (.invalidParameter name "exactly 32 hexadecimal bytes")

def workBNtoBuffer (work : Nat) : Except ChaintracksError Nat :=
  if work < 2 ^ 256 then .ok work
  else .error (.invalidParameter "work" ("a non-negative integer no greater than " ++ "256 bits"))

def addWork (work1 work2 : Nat) : Except ChaintracksError Nat := do
  let work1 ← validateWork work1 "work1"
  let work2 ← validateWork work2 "work2"
  workBNtoBuffer (work1 + work2)

def subWork (work1 work2 : Nat) : Except ChaintracksError Nat := do
  let minuend ← validateWork work1 "work1"
  let subtrahend ← validateWork work2 "work2"
  if minuend < subtrahend then .error (.invalidParameter "work1/work2" "a non-negative subtraction")
  else workBNtoBuffer (minuend - subtrahend)

/- `isMoreWork` on stored chainwork. -/
def isMoreWork (work1 work2 : Nat) : Bool :=
  work2 < work1

-- Validation

def validateUnsignedHeaderInteger
  (value : Nat) (field : String) (maximum : Nat) : Except ChaintracksError Unit :=
  if value > maximum then
    .error (.error ("Header " ++ field ++ " must be between 0 and " ++ toString maximum ++ "."))
  else .ok ()

def validateHeaderHash (value : JsString) (field : String) : Except ChaintracksError Unit :=
  if isHex32Bytes value then .ok ()
  else .error (.error ("Header " ++ field ++ " must be 32 hex bytes."))

def validateBaseBlockHeaderFormat (header : BlockHeader) :
  Except ChaintracksError Unit := do
  validateUnsignedHeaderInteger header.version "version" 0xffffffff
  validateHeaderHash header.previousHash "previousHash"
  validateHeaderHash header.merkleRoot "merkleRoot"
  validateUnsignedHeaderInteger header.time "time" 0xffffffff
  validateUnsignedHeaderInteger header.bits "bits" 0xffffffff
  validateUnsignedHeaderInteger header.nonce "nonce" 0xffffffff

def validateHeaderHashMatches (header : BlockHeader) : Except ChaintracksError Unit :=
  if header.hash ≠ blockHash header then .error (.error "Header hash is invalid.")
  else .ok ()

def validateHeaderFormat (header : BlockHeader) :
  Except ChaintracksError Unit := do
  validateBaseBlockHeaderFormat header
  validateUnsignedHeaderInteger header.height "height" 0x7fffffff
  validateHeaderHash header.hash "hash"
  validateHeaderHashMatches header

def hashNumber (hash : JsString) : Nat :=
  LittleEndian.leToNat (hexBytes hash).reverse

def validateHeaderDifficulty
  (hash : JsString) (bits : Nat) (chain : Chain) : Except ChaintracksError Unit := do
  let target ← validateCompactTarget bits chain
  if hashNumber hash ≤ target then .ok ()
  else .error (.error "Block hash is not less than specified target.")

/- The key of `proofOfWorkExceptions`. -/
def stnGenesisHash : JsString :=
  ("6b38bdbcd73a19f7889d23e1fa6166a9" ++ "de71affceca60ca3bb1b28af8135c594").toList

def validateHeaderProofOfWork
  (header : BlockHeader) (chain : Chain) : Except ChaintracksError Unit :=
  if header.hash = stnGenesisHash ∧ header.bits = 0x1d00ffff then .ok ()
  else validateHeaderDifficulty header.hash header.bits chain

def dirtyHashes : List (JsString × String) :=
  [(("00000000000000000019f112ec0a9982" ++ "926f1258cdcc558dd7c3b7e5dc7fa148").toList,
    "This is the first header of the invalid SegWit chain."),
   (("0000000000000000004626ff6e3b9369" ++ "41d341c5932ece4357eeccac44e6d56c").toList,
    "This is the first header of the invalid ABC chain.")]

def validateAgainstDirtyHashes (blockHash : JsString) : Except ChaintracksError Unit :=
  match dirtyHashes.find? (·.1 = blockHash) with
  | some (_, reason) => .error (.error ("Not adding a header with a dirty hash: " ++ reason))
  | none => .ok ()

def validateIncomingHeader (chain : Chain) (header : BlockHeader) :
  Except ChaintracksError BlockHeader := do
  validateHeaderFormat header
  validateHeaderProofOfWork header chain
  validateAgainstDirtyHashes header.hash
  return header

variable {chain : Chain}

theorem convertBitsToWork_pos {bits work : Nat} (hWork : convertBitsToWork bits chain = .ok work) :
  0 < work := by
  rcases bind_eq_ok_iff.mp hWork with ⟨target, _, hEq⟩
  cases hEq
  exact Nat.succ_pos _

theorem addWork_eq_ok_iff {work1 work2 sum : Nat} :
  addWork work1 work2 = .ok sum ↔ work1 + work2 < 2 ^ 256 ∧ sum = work1 + work2 := by
  constructor
  · intro hSum
    rcases bind_eq_ok_iff.mp hSum with ⟨left, hLeft, hSum⟩
    rcases bind_eq_ok_iff.mp hSum with ⟨right, hRight, hSum⟩
    unfold validateWork at hLeft hRight
    unfold workBNtoBuffer at hSum
    split_ifs at hLeft hRight hSum with _ _ hLt
    cases hLeft
    cases hRight
    cases hSum
    exact ⟨hLt, rfl⟩
  · rintro ⟨hLt, rfl⟩
    simp only [addWork, validateWork, workBNtoBuffer, if_pos (show work1 < 2 ^ 256 by omega),
      if_pos (show work2 < 2 ^ 256 by omega), ok_bind, if_pos hLt]

theorem validateIncomingHeader_spec
  {header accepted : BlockHeader} (hValid : validateIncomingHeader chain header = .ok accepted) :
  accepted = header := by
  rcases bind_eq_ok_iff.mp hValid with ⟨_, _, hValid⟩
  rcases bind_eq_ok_iff.mp hValid with ⟨_, _, hValid⟩
  rcases bind_eq_ok_iff.mp hValid with ⟨_, _, hValid⟩
  cases hValid
  rfl

theorem validateIncomingHeader_height_le
  {header accepted : BlockHeader} (hValid : validateIncomingHeader chain header = .ok accepted) :
  header.height ≤ 0x7fffffff := by
  rcases bind_eq_ok_iff.mp hValid with ⟨_, hFormat, _⟩
  rcases bind_eq_ok_iff.mp hFormat with ⟨_, _, hFormat⟩
  rcases bind_eq_ok_iff.mp hFormat with ⟨_, hHeight, _⟩
  unfold validateUnsignedHeaderInteger at hHeight
  split_ifs at hHeight with hAbove
  exact Nat.le_of_not_gt hAbove

end TsStack.Chaintracks
