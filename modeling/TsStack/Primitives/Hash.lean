import Mathlib.Algebra.Order.Ring.Nat
import TsStack.Primitives.Hex

/-
  The SHA-256 hash of `primitives/Hash.ts` and the double
  hash built from it.
-/

-- Word Operations

namespace TsStack

namespace Sha256

def rotr (word : UInt32) (shift : UInt32) : UInt32 :=
  (word >>> shift) ||| (word <<< (32 - shift))

/- `S0_256`. -/
def bigSigma0 (x : UInt32) : UInt32 :=
  rotr x 2 ^^^ rotr x 13 ^^^ rotr x 22

/- `S1_256`. -/
def bigSigma1 (x : UInt32) : UInt32 :=
  rotr x 6 ^^^ rotr x 11 ^^^ rotr x 25

/- `G0_256`. -/
def smallSigma0 (x : UInt32) : UInt32 :=
  rotr x 7 ^^^ rotr x 18 ^^^ (x >>> 3)

/- `G1_256`. -/
def smallSigma1 (x : UInt32) : UInt32 :=
  rotr x 17 ^^^ rotr x 19 ^^^ (x >>> 10)

/- `ch32`. -/
def ch (x y z : UInt32) : UInt32 :=
  (x &&& y) ^^^ ((~~~ x) &&& z)

/- `maj32`. -/
def maj (x y z : UInt32) : UInt32 :=
  (x &&& y) ^^^ (x &&& z) ^^^ (y &&& z)

/- `SHA256_IV`. -/
def initialState : List UInt32 :=
  [0x6a09e667, 0xbb67ae85, 0x3c6ef372, 0xa54ff53a, 0x510e527f, 0x9b05688c, 0x1f83d9ab, 0x5be0cd19]

/- `K256`. -/
def roundConstants : List UInt32 :=
  [0x428a2f98, 0x71374491, 0xb5c0fbcf, 0xe9b5dba5, 0x3956c25b, 0x59f111f1, 0x923f82a4, 0xab1c5ed5,
    0xd807aa98, 0x12835b01, 0x243185be, 0x550c7dc3, 0x72be5d74, 0x80deb1fe, 0x9bdc06a7, 0xc19bf174,
    0xe49b69c1, 0xefbe4786, 0x0fc19dc6, 0x240ca1cc, 0x2de92c6f, 0x4a7484aa, 0x5cb0a9dc, 0x76f988da,
    0x983e5152, 0xa831c66d, 0xb00327c8, 0xbf597fc7, 0xc6e00bf3, 0xd5a79147, 0x06ca6351, 0x14292967,
    0x27b70a85, 0x2e1b2138, 0x4d2c6dfc, 0x53380d13, 0x650a7354, 0x766a0abb, 0x81c2c92e, 0x92722c85,
    0xa2bfe8a1, 0xa81a664b, 0xc24b8b70, 0xc76c51a3, 0xd192e819, 0xd6990624, 0xf40e3585, 0x106aa070,
    0x19a4c116, 0x1e376c08, 0x2748774c, 0x34b0bcb5, 0x391c0cb3, 0x4ed8aa4a, 0x5b9cca4f, 0x682e6ff3,
    0x748f82ee, 0x78a5636f, 0x84c87814, 0x8cc70208, 0x90befffa, 0xa4506ceb, 0xbef9a3f7, 0xc67178f2]

-- Block Processing

def readWords : Bytes → List UInt32
| a :: b :: c :: d :: rest =>
  (a.toUInt32 <<< 24 ||| b.toUInt32 <<< 16 ||| c.toUInt32 <<< 8 ||| d.toUInt32) :: readWords rest
| _ => []

/- Extend the message schedule by `steps` words. The schedule is kept newest word first. -/
def extendSchedule : Nat → List UInt32 → List UInt32
| 0, newestFirst => newestFirst
| steps + 1, newestFirst =>
  let w2 := newestFirst.getD 1 0
  let w7 := newestFirst.getD 6 0
  let w15 := newestFirst.getD 14 0
  let w16 := newestFirst.getD 15 0
  let next := (smallSigma0 w15 + w7) + (smallSigma1 w2 + w16)
  extendSchedule steps (next :: newestFirst)

def schedule (block : Bytes) : List UInt32 :=
  (extendSchedule 48 (readWords block).reverse).reverse

def round (state : List UInt32) (constantAndWord : UInt32 × UInt32) :
  List UInt32 :=
  match state with
  | [a, b, c, d, e, f, g, h] =>
    let t1 := h + bigSigma1 e + ch e f g + constantAndWord.1 + constantAndWord.2
    let t2 := bigSigma0 a + maj a b c
    [t1 + t2, a, b, c, d + t1, e, f, g]
  | other => other

def process (state : List UInt32) (block : Bytes) :
  List UInt32 :=
  let final := (roundConstants.zip (schedule block)).foldl round state
  List.zipWith (· + ·) state final

def pad (msg : Bytes) : Bytes :=
  let zeros := (119 - msg.length % 64) % 64
  let bits := 8 * msg.length
  msg ++ 0x80 :: List.replicate zeros 0 ++ (List.range 8).map
      (fun i => UInt8.ofNat (bits / 256 ^ (7 - i)))

/- Compress the first `count` blocks of the input. -/
def processBlocks :
  Nat → List UInt32 → Bytes → List UInt32
| 0, state, _ => state
| count + 1, state, msg => processBlocks count (process state (msg.take 64)) (msg.drop 64)

def wordBytes (word : UInt32) : Bytes :=
  [(word >>> 24).toUInt8, (word >>> 16).toUInt8, (word >>> 8).toUInt8, word.toUInt8]

end Sha256

/- `sha256` of `primitives/Hash.ts`. -/
def sha256 (msg : Bytes) : Bytes :=
  let padded := Sha256.pad msg
  (Sha256.processBlocks (padded.length / 64) Sha256.initialState padded).flatMap Sha256.wordBytes

/- `hash256`: SHA-256 applied twice. -/
@[irreducible] def hash256 (msg : Bytes) : Bytes :=
  sha256 (sha256 msg)

-- Digest Length

namespace Sha256

theorem round_length (state : List UInt32) (constantAndWord : UInt32 × UInt32) :
  (round state constantAndWord).length =
    state.length := by
  unfold round
  split <;> rfl

/- A sequence of rounds keeps the number of state words. -/
theorem foldl_round_length (inputs : List (UInt32 × UInt32)) (state : List UInt32) :
  (inputs.foldl round state).length = state.length := by
  induction inputs generalizing state with
  | nil => rfl
  | cons input inputs ih => rw [List.foldl_cons, ih, round_length]

theorem process_length (state : List UInt32) (block : Bytes) :
  (process state block).length = state.length := by
  simp [process, foldl_round_length]

theorem processBlocks_length (count : Nat) (state : List UInt32) (msg : Bytes) :
  (processBlocks count state msg).length =
    state.length := by
  induction count generalizing state msg with
  | zero => rfl
  | succ count ih => rw [processBlocks, ih, process_length]

end Sha256

theorem sha256_length (msg : Bytes) : (sha256 msg).length = 32 := by
  have hState : (Sha256.processBlocks ((Sha256.pad msg).length / 64)
        Sha256.initialState (Sha256.pad msg)).length = 8 := by
    rw [Sha256.processBlocks_length]
    rfl
  simp only [sha256, List.length_flatMap, Sha256.wordBytes,
    List.length_cons, List.length_nil, List.map_const', hState]
  rfl

/- A double digest has thirty-two bytes. -/
@[simp] theorem hash256_length (msg : Bytes) : (hash256 msg).length = 32 := by
  unfold hash256
  exact sha256_length _

end TsStack
