import Mathlib.Data.Nat.Digits.Defs
import TsStack.Lib.LittleEndian
import TsStack.Primitives.Hex

/-
  Signed-magnitude script numbers of
  `primitives/BigNumber.ts`.

  A `BigNumber` is modeled by its integer value: the class
  never keeps a sign on a zero magnitude.
-/

-- Signed Magnitude

namespace TsStack

open LittleEndian

def magnitudeBytes (magnitude : Nat) : Bytes :=
  (Nat.digits 256 magnitude).map UInt8.ofNat

def signBytes (negative : Bool) : Bytes → Bytes
| [] => []
| [byte] =>
  if byte &&& 0x80 = 0 then [if negative then byte ||| 0x80 else byte]
  else [byte, if negative then 0x80 else 0x00]
| byte :: bytes => byte :: signBytes negative bytes

/- `BigNumber.toSm('little')`. -/
def toSm (bn : Int) : Bytes :=
  signBytes (decide (bn < 0)) (magnitudeBytes bn.natAbs)

def toScriptNum (bn : Int) : Bytes :=
  toSm bn

def clearSign : Bytes → Bytes
| [] => []
| [byte] => [byte &&& 0x7f]
| byte :: bytes => byte :: clearSign bytes

/- `BigNumber.fromSm(bytes, 'little')`. -/
def fromSm (bytes : Bytes) : Int :=
  match bytes.getLast? with
  | none => 0
  | some top =>
    if top &&& 0x80 ≠ 0 then -(leToNat (clearSign bytes) : Int)
    else leToNat bytes

/- The minimality test of `BigNumber.fromScriptNum` on a non-empty byte string. -/
def hasRedundantSignByte (num : Bytes) : Bool :=
  match num.reverse with
  | [] => false
  | [top] => top &&& 0x7f = 0
  | top :: next :: _ => top &&& 0x7f = 0 && next &&& 0x80 = 0

def fromScriptNum
  (num : Bytes) (requireMinimal : Bool) (maxNumSize : Option Nat) : Except JsError Int :=
  if maxNumSize.any (· < num.length) then .error (.error "script number overflow")
  else if num = [] then .ok 0
  else if requireMinimal && hasRedundantSignByte num then
    .error (.error "non-minimally encoded script number")
  else .ok (fromSm num)

example : toSm (-255) = [0xff, 0x80] := by decide

example : fromSm [0xff, 0x80] = -255 := by decide

theorem length_clearSign (bytes : Bytes) : (clearSign bytes).length = bytes.length := by
  fun_induction clearSign bytes with
  | case1 => rfl
  | case2 byte => rfl
  | case3 byte bytes hTail ih => simp [ih]

-- Minimal Encoding

/-
  What `minimallyEncode` does to the array it is given: it returns that array, or edits it in
  place and returns a new array.
-/
inductive MinimalEncoding where
| same
| fresh (edited result : Bytes)
deriving DecidableEq, Repr

/- The trimming loop of `minimallyEncode`, entered with the number of bytes left to look at. -/
def trimLoop (buf : Bytes) (last : UInt8) : Nat → MinimalEncoding
| 0 => .fresh buf []
| i + 1 =>
  let byte := buf.getD i 0
  if byte = 0 then trimLoop buf last i
  else if byte &&& 0x80 = 0 then
    let edited := buf.set i (byte ||| last)
    .fresh edited (edited.take (i + 1))
  else
    let edited := buf.set (i + 1) last
    .fresh edited (edited.take (i + 2))

def minimallyEncode (buf : Bytes) : MinimalEncoding :=
  match buf.reverse with
  | [] => .same
  | [last] => if last &&& 0x7f ≠ 0 then .same else .fresh buf []
  | last :: next :: _ =>
    if last &&& 0x7f ≠ 0 then .same
    else if next &&& 0x80 ≠ 0 then .same
    else trimLoop buf last (buf.length - 1)

theorem length_edited_trimLoop {buf edited result : Bytes} {last : UInt8} {count : Nat}
  (hTrim : trimLoop buf last count = .fresh edited result) : edited.length = buf.length := by
  induction count with
  | zero =>
    cases hTrim
    rfl
  | succ i ih =>
    rw [trimLoop] at hTrim
    split_ifs at hTrim
    · exact ih hTrim
    · cases hTrim
      exact List.length_set
    · cases hTrim
      exact List.length_set

theorem length_edited_minimallyEncode
  {buf edited result : Bytes} (hEncode : minimallyEncode buf = .fresh edited result) :
  edited.length = buf.length := by
  unfold minimallyEncode at hEncode
  split at hEncode
  · cases hEncode
  · split_ifs at hEncode
    cases hEncode
    rfl
  · split_ifs at hEncode
    exact length_edited_trimLoop hEncode

end TsStack
