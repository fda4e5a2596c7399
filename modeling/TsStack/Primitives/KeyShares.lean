import TsStack.Primitives.Decimal
import TsStack.Primitives.ShamirPolynomial

/-
  The shares of a private key, of `primitives/PrivateKey.ts`,
  and their backup text.

  The hashes and the curve are given by functions: the keyed
  hash that draws coordinates, and the hash of the public key
  of a private key.  The random bytes are given by the place
  where they are drawn.
-/

-- Share Text

namespace TsStack

structure KeyShares where
  points : List PointInFiniteField
  threshold : Nat
  integrity : JsString
deriving DecidableEq, Repr

def maxBackupShareLength : Nat := 256

/- `BACKUP_SHARE_THRESHOLD`. -/
def isShareThreshold : JsString → Bool
| [a] => '2' ≤ a && a ≤ '9'
| [a, b] => '1' ≤ a && a ≤ '9' && isDigit b
| ['1', b, c] => isDigit b && isDigit c
| ['2', '5', c] => '0' ≤ c && c ≤ '5'
| ['2', b, c] => '0' ≤ b && b ≤ '4' && isDigit c
| _ => false

/- `BACKUP_SHARE_INTEGRITY`. -/
def isShareIntegrity (text : JsString) : Bool :=
  text.length == 8 && text.all fun char => isDigit char || ('a' ≤ char && char ≤ 'f')

def assertKeyShareCollection (keyShares : KeyShares) : Except JsError Unit :=
  if keyShares.points.length = 0 ∨ keyShares.points.length > maxShamirShares then
    .error (.typeError s!"shares must contain from 1 to {maxShamirShares} entries")
  else if !isSafeInteger keyShares.threshold ||
      keyShares.threshold < 2 || keyShares.threshold > maxShamirShares then
    .error (.typeError (s!"threshold must be a safe integer from 2 to " ++ s!"{maxShamirShares}"))
  else if !isShareIntegrity keyShares.integrity then
    .error (.typeError ("integrity must be an 8-character lowercase " ++ "hexadecimal string"))
  else .ok ()

namespace KeyShares

def shareText (threshold : Nat) (integrity : JsString) (point : PointInFiniteField) : JsString :=
  point.toString ++ '.' :: Nat.toDigits 10 threshold ++ '.' :: integrity

/- One share of `toBackupFormat`. -/
def writeShare (keyShares : KeyShares) (point : PointInFiniteField) :
  Except JsError JsString := do
  let read ← PointInFiniteField.fromString point.toString
  if read.toString ≠ point.toString then
    .error (.typeError "shares must contain canonical finite-field points")
  else .ok (shareText keyShares.threshold keyShares.integrity point)

def toBackupFormat (keyShares : KeyShares) :
  Except JsError (List JsString) := do
  assertKeyShareCollection keyShares
  keyShares.points.mapM keyShares.writeShare

def readParts (state : KeyShares) (idx : Nat) (x y t i : JsString) : Except JsError KeyShares :=
  if !isBase58Field x || !isBase58Field y || !isShareThreshold t || !isShareIntegrity i then
    .error (.typeError s!"Invalid canonical share data in share {idx}")
  else if idx ≠ 0 ∧ state.threshold ≠ numberOfDigits t then
    .error (.error s!"Threshold mismatch in share {idx}")
  else if idx ≠ 0 ∧ state.integrity ≠ i then .error (.error s!"Integrity mismatch in share {idx}")
  else do
    let point ← PointInFiniteField.fromString (x ++ '.' :: y)
    return ⟨state.points ++ [point], numberOfDigits t, i⟩

/- One share of `fromBackupFormat`. -/
def readShare (state : KeyShares) (idx : Nat) (share : JsString) : Except JsError KeyShares :=
  if share.length > maxBackupShareLength then
    .error (.typeError s!"Invalid share format in share {idx}")
  else
    match share.splitOn '.' with
    | [x, y, t, i] => state.readParts idx x y t i
    | _ =>
      .error (.error (s!"Invalid share format in share {idx}. " ++ "Expected format: \"x.y.t.i\""))

def readShares (state : KeyShares) (idx : Nat) : List JsString → Except JsError KeyShares
| [] => .ok state
| share :: shares => do
    let next ← state.readShare idx share
    next.readShares (idx + 1) shares

def fromBackupFormat (shares : List JsString) : Except JsError KeyShares :=
  if shares.length = 0 ∨ shares.length > maxShamirShares then
    .error (.typeError s!"shares must contain from 1 to {maxShamirShares} entries")
  else do
    let keyShares ← readShares ⟨[], 0, []⟩ 0 shares
    assertKeyShareCollection keyShares
    return keyShares

end KeyShares

-- Splitting a Key

structure KeyPrimitives where
  sha512hmac : Bytes → Bytes → Bytes
  publicKeyHash : BigNumber → Bytes

structure ShareDraws where
  polynomial : Nat → Bytes × Bytes
  seed : Bytes
  nonce : Nat → Nat → Bytes

namespace ShamirPolynomial

/- A random point of `fromPrivateKey`. -/
def drawnPoint (draws : ShareDraws) (index : Nat) : PointInFiniteField :=
  PointInFiniteField.ofCoordinates (BigNumber.umod
      (BigNumber.ofArray (draws.polynomial index).1) Curve.p)
    (BigNumber.umod (BigNumber.ofArray (draws.polynomial index).2) Curve.p)

def fromPrivateKey
  (draws : ShareDraws) (key : BigNumber) (threshold : Nat) : Except JsError ShamirPolynomial :=
  if !isSafeInteger threshold || threshold < 2 || threshold > maxShamirShares then
    .error (.typeError (s!"threshold must be a safe integer from 2 to " ++ s!"{maxShamirShares}"))
  else
    create (PointInFiniteField.ofCoordinates 0 (BigNumber.ofArray (BigNumber.toArray key)) ::
        (List.range (threshold - 1)).map (drawnPoint draws))
      none

end ShamirPolynomial

namespace PrivateKey

def ofBytes (bytes : Bytes) : BigNumber :=
  BigNumber.umod (BigNumber.ofArray bytes) Curve.n

def uniqueXError : JsError :=
  .error ("Failed to generate unique x coordinate after " ++ "5 attempts")

variable (primitives : KeyPrimitives)

def candidateX (draws : ShareDraws) (i attempts : Nat) : BigNumber :=
  BigNumber.umod (BigNumber.ofArray (primitives.sha512hmac draws.seed
        (UInt8.ofNat i :: UInt8.ofNat attempts :: draws.nonce i attempts)))
    Curve.p

def drawX (primitives : KeyPrimitives) (draws : ShareDraws) (used : List BigNumber)
  (i : Nat) : Nat → Nat → Except JsError BigNumber
| 0, _ => .error uniqueXError
| left + 1, attempts =>
  let x := candidateX primitives draws i attempts
  if x = 0 ∨ x ∈ used then drawX primitives draws used i left (attempts + 1)
  else .ok x

structure DrawnShares where
  usedXCoordinates : List BigNumber := []
  points : List PointInFiniteField := []

def drawShare (draws : ShareDraws) (polynomial : ShamirPolynomial)
  (state : DrawnShares) (i : Nat) : Except JsError DrawnShares := do
  let x ← drawX primitives draws state.usedXCoordinates i 5 0
  let y ← polynomial.valueAt x
  return ⟨state.usedXCoordinates ++ [x], state.points ++ [PointInFiniteField.ofCoordinates x y]⟩

/- The checks of the arguments of `toKeyShares`. -/
def checkShareCounts (threshold totalShares : Nat) : Except JsError Unit :=
  if !isSafeInteger threshold || !isSafeInteger totalShares then
    .error (.typeError "threshold and totalShares must be safe integers")
  else if threshold < 2 then .error (.error "threshold must be at least 2")
  else if totalShares < 2 then .error (.error "totalShares must be at least 2")
  else if threshold > totalShares then
    .error (.error ("threshold should be less than or equal to " ++ "totalShares"))
  else if threshold > maxShamirShares ∨ totalShares > maxShamirShares then
    .error (.rangeError (s!"threshold and totalShares cannot exceed " ++ s!"{maxShamirShares}"))
  else .ok ()

def integrityOf (key : BigNumber) : JsString :=
  (toHex (primitives.publicKeyHash key)).take 8

def toKeyShares (draws : ShareDraws) (key : BigNumber)
  (threshold totalShares : Nat) :
  Except JsError KeyShares := do
  checkShareCounts threshold totalShares
  let polynomial ← ShamirPolynomial.fromPrivateKey draws key threshold
  let drawn ← (List.range totalShares).foldlM (drawShare primitives draws polynomial) {}
  return ⟨drawn.points, threshold, integrityOf primitives key⟩

def toBackupShares (draws : ShareDraws) (key : BigNumber)
  (threshold totalShares : Nat) :
  Except JsError (List JsString) := do
  let keyShares ← toKeyShares primitives draws key threshold totalShares
  keyShares.toBackupFormat

-- Combining Shares

def ownPoints :
  List PointInFiniteField → Except JsError (List PointInFiniteField)
| [] => .ok []
| point :: points =>
  if point.x < 0 ∨ point.y < 0 ∨ point.x ≥ Curve.p ∨ point.y ≥ Curve.p then
    .error (.typeError "share coordinates must be canonical field elements")
  else do
    let rest ← ownPoints points
    return PointInFiniteField.ofCoordinates (BigNumber.ofArray (BigNumber.toArray point.x))
      (BigNumber.ofArray (BigNumber.toArray point.y)) :: rest

/- No two points have the same coordinate. -/
def requireUnique (points : List PointInFiniteField) :
  Except JsError Unit :=
  if (points.map (·.x)).Nodup then .ok ()
  else .error (.error "Duplicate share detected, each must be unique.")

def requireIntegrity (integrity : JsString)
  (key : BigNumber) : Except JsError BigNumber :=
  if integrityOf primitives key ≠ integrity then .error (.error "Integrity hash mismatch")
  else .ok key

def requireThreshold (keyShares : KeyShares) : Except JsError Unit :=
  if keyShares.points.length < keyShares.threshold then
    .error (.error (s!"At least {keyShares.threshold} shares are " ++
        "required to reconstruct the private key"))
  else .ok ()

def fromKeyShares (keyShares : KeyShares) : Except JsError BigNumber := do
  assertKeyShareCollection keyShares
  requireThreshold keyShares
  let owned ← ownPoints (keyShares.points.take keyShares.threshold)
  requireUnique owned
  let polynomial ← ShamirPolynomial.create owned (some keyShares.threshold)
  let value ← polynomial.valueAt 0
  requireIntegrity primitives keyShares.integrity (ofBytes (BigNumber.toArray value))

def fromBackupShares (shares : List JsString) : Except JsError BigNumber := do
  let keyShares ← KeyShares.fromBackupFormat shares
  fromKeyShares primitives keyShares

end PrivateKey

end TsStack
