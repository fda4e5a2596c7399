import Mathlib.Data.Nat.Digits.Lemmas
import Mathlib.Data.ZMod.Basic
import TsStack.Primitives.Hex

/-
  The integers of `primitives/BigNumber.ts`: their bytes, and
  the modular inverse by the extended Euclidean algorithm.
-/

-- Bytes

open List

namespace TsStack

abbrev BigNumber := Int

namespace BigNumber

/- One byte of `#initArray`. -/
def shiftIn (magnitude : Nat) (byte : UInt8) : Nat :=
  magnitude * 256 + byte.toNat

/- `#initArray` with the most significant byte first. -/
def ofArray (bytes : Bytes) : BigNumber :=
  (bytes.foldl shiftIn 0 : Nat)

/- `toArray`: zero has one byte. -/
def toArray (number : BigNumber) : Bytes :=
  if number = 0 then [0]
  else ((Nat.digits 256 number.natAbs).map UInt8.ofNat).reverse

/- The value of bytes, the least significant one first. -/
def magnitudeLE (bytes : Bytes) : Nat :=
  Nat.ofDigits 256 (bytes.map UInt8.toNat)

theorem magnitudeLE_append (low high : Bytes) :
  magnitudeLE (low ++ high) = magnitudeLE low + 256 ^ low.length * magnitudeLE high := by
  unfold magnitudeLE
  rw [map_append, Nat.ofDigits_append, length_map]

theorem ofArray_eq (bytes : Bytes) : ofArray bytes = (magnitudeLE bytes.reverse : Int) := by
  unfold ofArray
  congr 1
  have hFold : ∀ (magnitude : Nat) (bytes : Bytes),
        bytes.foldl shiftIn magnitude = magnitudeLE bytes.reverse +
          256 ^ bytes.length * magnitude := by
    intro magnitude bytes
    induction bytes generalizing magnitude with
    | nil => simp [magnitudeLE]
    | cons byte bytes ih =>
      rw [foldl_cons, ih, reverse_cons, magnitudeLE_append, length_reverse]
      simp only [magnitudeLE, map_cons, map_nil,
        Nat.ofDigits_singleton, length_cons, pow_succ, shiftIn]
      ring
  rw [hFold]
  simp

theorem toArray_ne_nil (number : BigNumber) : toArray number ≠ [] := by
  unfold toArray
  split
  · simp
  · rename_i hZero
    simp [Nat.digits_eq_nil_iff_eq_zero, hZero]

theorem ofArray_toArray {number : BigNumber} (hNonneg : 0 ≤ number) :
  ofArray (toArray number) = number := by
  unfold toArray
  split
  · rename_i hZero
    rw [hZero]
    rfl
  · rw [ofArray_eq, reverse_reverse]
    unfold magnitudeLE
    rw [List.map_map]
    have hDigits : (Nat.digits 256 number.natAbs).map (UInt8.toNat ∘ UInt8.ofNat) =
          Nat.digits 256 number.natAbs := by
      conv_rhs => rw [← List.map_id (Nat.digits 256 _)]
      apply map_congr_left
      intro digit hDigit
      have hLt : digit < 256 := Nat.digits_lt_base (by decide) hDigit
      change (UInt8.ofNat digit).toNat = digit
      rw [UInt8.toNat_ofNat']
      exact Nat.mod_eq_of_lt hLt
    rw [hDigits, Nat.ofDigits_digits]
    exact Int.natAbs_of_nonneg hNonneg

/- A number below a power of 256 has that many bytes. -/
theorem length_toArray_le
  {number : BigNumber} {length : Nat} (hNonneg : 0 ≤ number) (hPos : 1 ≤ length)
  (hLt : number < 256 ^ length) : (toArray number).length ≤ length := by
  unfold toArray
  split
  · exact hPos
  · rw [length_reverse, length_map]
    apply (Nat.digits_length_le_iff (by decide) _).mpr
    zify
    rw [abs_of_nonneg hNonneg]
    exact hLt

-- Modular Inverses

def umod (number modulus : BigNumber) : BigNumber :=
  number % modulus

structure EgcdState where
  u : Int
  v : Int
  a : Int
  pa : Int
  b : Int
  pb : Int
deriving DecidableEq, Repr

/- One round: division of a `bigint` truncates. -/
def egcdStep (state : EgcdState) : EgcdState :=
  let q := state.u.tdiv state.v
  { u := state.v
    v := state.u.tmod state.v
    a := state.pa
    pa := state.a - q * state.pa
    b := state.pb
    pb := state.b - q * state.pb }

def egcdLoop (state : EgcdState) : EgcdState :=
  if state.v = 0 then state
  else egcdLoop (egcdStep state)
termination_by state.v.natAbs
decreasing_by
  rename_i hRemainder
  change (state.u.tmod state.v).natAbs < state.v.natAbs
  rw [Int.natAbs_tmod]
  exact Nat.mod_lt _ (Int.natAbs_pos.mpr hRemainder)

structure Egcd where
  a : BigNumber
  b : BigNumber
  gcd : BigNumber
deriving DecidableEq, Repr

def egcd (number modulus : BigNumber) : Except JsError Egcd :=
  if modulus < 0 then .error (.error "p must not be negative")
  else if modulus = 0 then .error (.error "p must not be zero")
  else
    let last := egcdLoop
      { u := number, v := modulus, a := 1, pa := 0
        b := 0, pb := 1 }
    .ok { a := last.a, b := last.b, gcd := last.u.natAbs }

/- The inverse that `egcd` has found, if there is one. -/
def inverseOf (modulus : BigNumber) (eg : Egcd) : Except JsError BigNumber :=
  if eg.gcd ≠ 1 then .error (.error "Inverse does not exist (numbers are not coprime).")
  else .ok (umod eg.a modulus)

def invm (number modulus : BigNumber) :
  Except JsError BigNumber :=
  if modulus ≤ 0 then .error (.error "Modulus for invm must be positive and non-zero")
  else egcd number modulus >>= inverseOf modulus

/-
  The rounds keep the common divisor, and that the remainders
  are multiples of the number up to multiples of the modulus.
-/
structure EgcdInvariant (number modulus : Nat) (state : EgcdState) : Prop where
  uNonneg : 0 ≤ state.u
  vNonneg : 0 ≤ state.v
  gcd : Int.gcd state.u state.v = Nat.gcd number modulus
  u : (state.a : ZMod modulus) * number = state.u
  v : (state.pa : ZMod modulus) * number = state.v

theorem EgcdInvariant.step
  {number modulus : Nat} {state : EgcdState} (hState : EgcdInvariant number modulus state) :
  EgcdInvariant number modulus (egcdStep state) := by
  unfold egcdStep
  constructor
  case uNonneg => exact hState.vNonneg
  case vNonneg => exact Int.tmod_nonneg state.v hState.uNonneg
  case gcd =>
    dsimp only
    rw [← hState.gcd]
    unfold Int.gcd
    rw [Int.natAbs_tmod, Nat.gcd_comm, Nat.gcd_comm state.u.natAbs]
    exact (Nat.gcd_rec _ _).symm
  case u => exact hState.v
  case v =>
    dsimp only
    have hDivision : state.u.tmod state.v = state.u - state.v * state.u.tdiv state.v :=
      Int.tmod_def state.u state.v
    rw [hDivision]
    push_cast
    rw [← hState.u, ← hState.v]
    ring

theorem egcdLoop_spec
  {number modulus : Nat} {state : EgcdState} (hState : EgcdInvariant number modulus state) :
  EgcdInvariant number modulus (egcdLoop state) ∧ (egcdLoop state).v = 0 := by
  induction state using egcdLoop.induct with
  | case1 state hZero =>
    unfold egcdLoop
    rw [if_pos hZero]
    exact ⟨hState, hZero⟩
  | case2 state hRest ih =>
    unfold egcdLoop
    rw [if_neg hRest]
    exact ih hState.step

theorem invm_eq_ok
  {number modulus : Nat} (hPos : 0 < modulus) (hCoprime : Nat.Coprime number modulus) :
  ∃ inverse : BigNumber, invm number modulus = .ok inverse ∧
      (inverse : ZMod modulus) * number = 1 := by
  have hStart : EgcdInvariant number modulus
        { u := number, v := modulus, a := 1, pa := 0
          b := 0, pb := 1 } := by
    constructor
    case uNonneg => exact Int.natCast_nonneg number
    case vNonneg => exact Int.natCast_nonneg modulus
    case gcd => exact Int.gcd_natCast_natCast number modulus
    case u => simp
    case v => simp
  rcases egcdLoop_spec hStart with ⟨hLast, hZero⟩
  generalize hEq : egcdLoop
    { u := number, v := modulus, a := 1, pa := 0
      b := 0, pb := 1 } = last at hLast hZero
  have hOne : last.u = 1 := by
    have hGcd := hLast.gcd
    rw [hZero, Int.gcd_zero_right, hCoprime] at hGcd
    have hNonneg := hLast.uNonneg
    omega
  have hPositive : (0 : Int) < modulus := by exact_mod_cast hPos
  refine ⟨umod last.a modulus, ?_, ?_⟩
  · have hEgcd : egcd number modulus = .ok { a := last.a, b := last.b, gcd := 1 } := by
      unfold egcd
      rw [if_neg (not_lt.mpr hPositive.le), if_neg hPositive.ne']
      dsimp only
      rw [hEq, hOne]
      rfl
    unfold invm
    rw [if_neg (not_le.mpr hPositive), hEgcd]
    rfl
  · unfold umod
    rw [ZMod.intCast_mod, hLast.u, hOne]
    exact Int.cast_one

end BigNumber

end TsStack
