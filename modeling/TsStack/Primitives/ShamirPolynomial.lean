import Mathlib.Data.List.GetD
import Mathlib.LinearAlgebra.Lagrange
import TsStack.Primitives.Base58
import TsStack.Primitives.Curve

/-
  The points and the polynomial of `primitives/Polynomial.ts`.

  A polynomial is given by points, and its value elsewhere is
  the sum of Lagrange, so it is the value of the polynomial
  that Mathlib interpolates through the points.

  A set of coordinates holds their hexadecimal text, which is
  as good as the coordinates.
-/

-- Points

open List

namespace TsStack

open Curve BigNumber

structure PointInFiniteField where
  x : BigNumber
  y : BigNumber
deriving DecidableEq, Repr

def maxShamirShares : Nat := 255

def maxPointStringLength : Nat := 129

def isBase58Field (part : JsString) : Bool :=
  1 ≤ part.length && part.length ≤ 64 && part.all (base58chars.contains ·)

namespace PointInFiniteField

/- The constructor. -/
def ofCoordinates (x y : BigNumber) : PointInFiniteField where
  x := BigNumber.umod x Curve.p
  y := BigNumber.umod y Curve.p

def toString (point : PointInFiniteField) : JsString :=
  toBase58 (BigNumber.toArray point.x) ++ '.' :: toBase58 (BigNumber.toArray point.y)

def representationError : JsError :=
  .typeError ("Finite-field point must use a bounded canonical " ++ "Base58 representation")

def ofFields (x y : JsString) : Except JsError PointInFiniteField := do
  let xBytes ← fromBase58 x
  let yBytes ← fromBase58 y
  return ofCoordinates (BigNumber.ofArray xBytes) (BigNumber.ofArray yBytes)

/- A point is refused when it would be written otherwise. -/
def requireCanonical (str : JsString) (point : PointInFiniteField) :
  Except JsError PointInFiniteField :=
  if point.toString ≠ str then .error representationError
  else .ok point

def fromString (str : JsString) : Except JsError PointInFiniteField :=
  if str.length > maxPointStringLength then .error representationError
  else
    match str.splitOn '.' with
    | [x, y] =>
      if !isBase58Field x || !isBase58Field y then .error representationError
      else ofFields x y >>= requireCanonical str
    | _ => .error representationError

def IsCanonical (point : PointInFiniteField) : Prop :=
  (0 ≤ point.x ∧ point.x < Curve.p) ∧ (0 ≤ point.y ∧ point.y < Curve.p)

theorem umod_canonical (number : BigNumber) : 0 ≤ umod number p ∧ umod number p < p := by
  have hPos : (0 : Int) < p := by decide
  constructor
  · exact Int.emod_nonneg _ hPos.ne'
  · exact Int.emod_lt_of_pos _ hPos

variable {number : BigNumber}

theorem umod_of_canonical (hCanon : 0 ≤ number ∧ number < p) : umod number p = number :=
  Int.emod_eq_of_lt hCanon.1 hCanon.2

theorem ofCoordinates_canonical (x y : BigNumber) : (ofCoordinates x y).IsCanonical :=
  ⟨umod_canonical x, umod_canonical y⟩

variable {point : PointInFiniteField}

theorem ofCoordinates_of_canonical (hPoint : point.IsCanonical) :
  ofCoordinates point.x point.y = point := by
  unfold ofCoordinates
  rw [umod_of_canonical hPoint.1, umod_of_canonical hPoint.2]

theorem isBase58Field_toBase58 (hNum : 0 ≤ number ∧ number < p) :
  isBase58Field (toBase58 (BigNumber.toArray number)) =
    true := by
  have hBytes : (BigNumber.toArray number).length ≤ 32 := by
    apply length_toArray_le hNum.1 (by decide)
    apply lt_trans hNum.2
    exact_mod_cast p_lt
  have hLen := length_toBase58_le (BigNumber.toArray number)
  have hNonempty : toBase58 (BigNumber.toArray number) ≠ [] :=
    toBase58_ne_nil (toArray_ne_nil number)
  have hPos := length_pos_iff.mpr hNonempty
  unfold isBase58Field
  rw [Bool.and_eq_true, Bool.and_eq_true, decide_eq_true_iff, decide_eq_true_iff, List.all_eq_true]
  constructor
  · constructor
    · exact hPos
    · omega
  · intro char hChar
    exact contains_iff_mem.mpr (toBase58_mem hChar)

theorem fromBase58_toArray (hNum : 0 ≤ number ∧ number < p) :
  ∃ bytes, fromBase58 (toBase58 (BigNumber.toArray number)) = .ok bytes ∧
      ofArray bytes = number := by
  have hBytes : (BigNumber.toArray number).length ≤ 32 := by
    apply length_toArray_le hNum.1 (by decide)
    apply lt_trans hNum.2
    exact_mod_cast p_lt
  rcases fromBase58_toBase58 (toArray_ne_nil number) hBytes with ⟨bytes, hRead, hValue⟩
  refine ⟨bytes, hRead, ?_⟩
  rw [hValue]
  exact ofArray_toArray hNum.1

theorem dot_not_mem_toBase58 (bin : Bytes) : '.' ∉ toBase58 bin := by
  intro hDot
  have hMem := toBase58_mem hDot
  revert hMem
  decide

theorem isBase58Field_length {part : JsString} (hPart : isBase58Field part = true) :
  part.length ≤ 64 := by
  unfold isBase58Field at hPart
  rw [Bool.and_eq_true, Bool.and_eq_true, decide_eq_true_iff, decide_eq_true_iff] at hPart
  exact hPart.1.2

theorem fromString_toString (hPoint : point.IsCanonical) :
  fromString point.toString = .ok point := by
  have hX := isBase58Field_toBase58 hPoint.1
  have hY := isBase58Field_toBase58 hPoint.2
  have hLen : ¬point.toString.length > maxPointStringLength := by
    have hXLen := isBase58Field_length hX
    have hYLen := isBase58Field_length hY
    unfold toString maxPointStringLength
    rw [length_append, length_cons]
    omega
  have hSplit : point.toString.splitOn '.' =
        [toBase58 (BigNumber.toArray point.x), toBase58 (BigNumber.toArray point.y)] := by
    unfold toString
    rw [splitOn_append_cons_self_of_not_mem (dot_not_mem_toBase58 _),
      splitOn_eq_singleton (dot_not_mem_toBase58 _)]
  rcases fromBase58_toArray hPoint.1 with ⟨xBytes, hXBytes, hXValue⟩
  rcases fromBase58_toArray hPoint.2 with ⟨yBytes, hYBytes, hYValue⟩
  have hFields :
      ofFields (toBase58 (BigNumber.toArray point.x)) (toBase58 (BigNumber.toArray point.y)) =
        .ok point := by
    unfold ofFields
    rw [hXBytes, hYBytes]
    change Except.ok (ofCoordinates _ _) = _
    rw [hXValue, hYValue, ofCoordinates_of_canonical hPoint]
  unfold fromString
  rw [if_neg hLen, hSplit]
  dsimp only
  rw [hX, hY, hFields]
  change requireCanonical point.toString point = _
  exact if_neg (not_not.mpr rfl)

theorem inside_of_canonical (hPoint : point.IsCanonical) :
  ¬(point.x < 0 ∨ point.y < 0 ∨ point.x ≥ p ∨ point.y ≥ p) := by
  rintro (hX | hY | hX | hY)
  · exact not_lt.mpr hPoint.1.1 hX
  · exact not_lt.mpr hPoint.2.1 hY
  · exact not_le.mpr hPoint.1.2 hX
  · exact not_le.mpr hPoint.2.2 hY

end PointInFiniteField

-- Polynomials

structure ShamirPolynomial where
  points : List PointInFiniteField
  threshold : Nat
deriving DecidableEq, Repr

def assertPolynomialThreshold (threshold pointCount minimum : Nat) :
  Except JsError Unit :=
  if !isSafeInteger threshold || threshold < minimum || threshold > maxShamirShares then
    .error (.typeError (s!"threshold must be a safe integer from " ++
        s!"{minimum} to {maxShamirShares}"))
  else if threshold > pointCount then .error (.error "threshold cannot exceed the number of points")
  else .ok ()

namespace ShamirPolynomial

/- The constructor. -/
def create (points : List PointInFiniteField) (threshold : Option Nat) :
  Except JsError ShamirPolynomial :=
  if points.length = 0 ∨ points.length > maxShamirShares then
    .error (.typeError s!"points must contain from 1 to {maxShamirShares} entries")
  else do
    assertPolynomialThreshold (threshold.getD points.length) points.length 1
    return ⟨points, threshold.getD points.length⟩

def checkPoints :
  List BigNumber → List PointInFiniteField → Except JsError Unit
| _, [] => .ok ()
| seen, point :: points =>
  if point.x < 0 ∨ point.y < 0 ∨ point.x ≥ Curve.p ∨ point.y ≥ Curve.p then
    .error (.typeError "point coordinates must be canonical field elements")
  else if point.x ∈ seen then .error (.error "Polynomial points must have unique x coordinates")
  else checkPoints (seen ++ [point.x]) points

def mulFraction (x xi xj term : BigNumber) :
  Except JsError BigNumber := do
  let numerator := BigNumber.umod (x - xj) Curve.p
  let denominator := BigNumber.umod (xi - xj) Curve.p
  let denominatorInverse ← BigNumber.invm denominator Curve.p
  let fraction := BigNumber.umod (numerator * denominatorInverse) Curve.p
  return BigNumber.umod (term * fraction) Curve.p

def lagrangeTerm (points : List PointInFiniteField) (x : BigNumber) (i : Nat)
  (indices : List Nat) : Except JsError BigNumber :=
  indices.foldlM (fun term j =>
      if i = j then .ok term
      else mulFraction x (points.getD i ⟨0, 0⟩).x (points.getD j ⟨0, 0⟩).x term)
    (points.getD i ⟨0, 0⟩).y

/- The outer loop. -/
def lagrangeSum (points : List PointInFiniteField) (threshold : Nat) (x : BigNumber)
  (indices : List Nat) : Except JsError BigNumber :=
  indices.foldlM (fun y i => do
      let term ← lagrangeTerm points x i (List.range threshold)
      return BigNumber.umod (y + term) Curve.p)
    0

def valueAt (polynomial : ShamirPolynomial) (x : BigNumber) : Except JsError BigNumber := do
  assertPolynomialThreshold polynomial.threshold polynomial.points.length 1
  checkPoints [] (polynomial.points.take polynomial.threshold)
  lagrangeSum polynomial.points polynomial.threshold (BigNumber.umod x Curve.p)
    (List.range polynomial.threshold)

end ShamirPolynomial

-- The Value of a Polynomial

instance : Fact Curve.p.Prime := ⟨Curve.prime_p⟩

namespace ShamirPolynomial

variable (points : List PointInFiniteField)

/- The coordinates as elements of the field. -/
def nodeX (index : Nat) : ZMod Curve.p :=
  ((points.getD index ⟨0, 0⟩).x : Int)

def nodeY (index : Nat) : ZMod Curve.p :=
  ((points.getD index ⟨0, 0⟩).y : Int)

def PointsCanonical (threshold : Nat) : Prop :=
  ∀ i < threshold, (points.getD i ⟨0, 0⟩).IsCanonical

/- The first points have coordinates of their own. -/
def PointsDistinct (threshold : Nat) : Prop :=
  Set.InjOn (nodeX points) (Finset.range threshold : Set Nat)

theorem cast_umod (number : BigNumber) : ((umod number p : Int) : ZMod p) = (number : Int) := by
  unfold umod
  exact ZMod.intCast_mod number p

theorem mulFraction_eq_ok (x term : BigNumber) {xi xj : BigNumber}
  (hDist : ((xi : Int) : ZMod p) ≠ ((xj : Int) : ZMod p)) :
  ∃ next, mulFraction x xi xj term = .ok next ∧ ((next : Int) : ZMod p) =
        (term : Int) * (((x : Int) - (xj : Int)) *
          ((xi : Int) - (xj : Int) : ZMod p)⁻¹) := by
  have hCanon := PointInFiniteField.umod_canonical (xi - xj)
  have hDenominator : ((umod (xi - xj) p : Int) : ZMod p) =
        (xi : Int) - (xj : Int) := by
    rw [cast_umod]
    exact Int.cast_sub xi xj
  generalize hRest : umod (xi - xj) p = denominator at hCanon hDenominator
  lift denominator to Nat using hCanon.1
  have hNonzero : ¬p ∣ denominator := by
    intro hDivides
    have hZero : (denominator : ZMod p) = 0 := (ZMod.natCast_eq_zero_iff _ _).mpr hDivides
    rw [Int.cast_natCast, hZero] at hDenominator
    exact hDist (sub_eq_zero.mp hDenominator.symm)
  have hCoprime : Nat.Coprime denominator p :=
    ((Nat.Prime.coprime_iff_not_dvd prime_p).mpr hNonzero).symm
  rcases invm_eq_ok Curve.prime_p.pos hCoprime with ⟨inverse, hInverse, hProduct⟩
  refine ⟨umod (term * umod
    (umod (x - xj) p * inverse) p) p, ?_, ?_⟩
  · unfold mulFraction
    dsimp only
    rw [hRest, hInverse]
    rfl
  · rw [cast_umod]
    rw [Int.cast_mul, cast_umod, Int.cast_mul, cast_umod,
      Int.cast_sub, ← hDenominator, eq_inv_of_mul_eq_one_left hProduct]
    rw [Int.cast_natCast]

variable
    {points : List PointInFiniteField} {threshold : Nat}

theorem lagrangeTerm_eq_ok
  {i : Nat} {x : BigNumber} (hDist : PointsDistinct points threshold) (hI : i < threshold)
  {count : Nat} (hCount : count ≤ threshold) :
  ∃ term, lagrangeTerm points x i (range count) = .ok term ∧ ((term : Int) : ZMod p) =
        nodeY points i * ∏ j ∈ Finset.range count,
            if i = j then 1
            else
              (((x : Int) : ZMod p) - nodeX points j) *
                (nodeX points i - nodeX points j)⁻¹ := by
  induction count with
  | zero =>
    refine ⟨_, rfl, ?_⟩
    simp [nodeY]
  | succ count ih =>
    rcases ih (Nat.le_of_succ_le hCount) with ⟨term, hTerm, hValue⟩
    unfold lagrangeTerm at hTerm ⊢
    rw [range_succ, foldlM_append, hTerm, Finset.prod_range_succ]
    by_cases hEq : i = count
    · refine ⟨term, ?_, ?_⟩
      · change (if i = count then Except.ok term else _) >>= _ = _
        rw [if_pos hEq]
        rfl
      · rw [if_pos hEq, mul_one]
        exact hValue
    · have hApart : nodeX points i ≠ nodeX points count := by
        intro hSame
        apply hEq
        apply hDist
        · exact Finset.mem_coe.mpr (Finset.mem_range.mpr hI)
        · exact Finset.mem_coe.mpr (Finset.mem_range.mpr hCount)
        · exact hSame
      rcases mulFraction_eq_ok x term hApart with ⟨next, hNext, hNextValue⟩
      refine ⟨next, ?_, ?_⟩
      · change (if i = count then Except.ok term else _) >>= _ = _
        rw [if_neg hEq, hNext]
        rfl
      · rw [if_neg hEq, hNextValue, hValue]
        unfold nodeX
        ring

theorem lagrangeSum_eq_ok {x : BigNumber} (hDist : PointsDistinct points threshold) {count : Nat}
  (hCount : count ≤ threshold) : ∃ value, lagrangeSum points threshold x (range count) = .ok value ∧
      (0 ≤ value ∧ value < p) ∧ ((value : Int) : ZMod p) =
        ∑ i ∈ Finset.range count, nodeY points i * ∏ j ∈ Finset.range threshold,
              if i = j then 1
              else
                (((x : Int) : ZMod p) - nodeX points j) *
                  (nodeX points i - nodeX points j)⁻¹ := by
  induction count with
  | zero =>
    refine ⟨0, rfl, ⟨le_refl 0, ?_⟩, ?_⟩
    · exact_mod_cast Curve.prime_p.pos
    · simp
  | succ count ih =>
    rcases ih (Nat.le_of_succ_le hCount) with ⟨value, hSum, _, hValue⟩
    rcases lagrangeTerm_eq_ok (x := x) hDist (Nat.lt_of_succ_le hCount) (Nat.le_refl threshold)
      with ⟨term, hTerm, hTermValue⟩
    refine ⟨umod (value + term) p, ?_, PointInFiniteField.umod_canonical _, ?_⟩
    · unfold lagrangeSum at hSum ⊢
      rw [range_succ, foldlM_append, hSum]
      change (lagrangeTerm points x count (range threshold) >>= _) >>= _ = _
      rw [hTerm]
      rfl
    · rw [cast_umod, Int.cast_add, hValue, hTermValue, Finset.sum_range_succ]

theorem lagrange_eval (x : ZMod p) :
  (Lagrange.interpolate (Finset.range threshold) (nodeX points) (nodeY points)).eval x =
    ∑ i ∈ Finset.range threshold, nodeY points i * ∏ j ∈ Finset.range threshold,
          if i = j then 1
          else (x - nodeX points j) * (nodeX points i - nodeX points j)⁻¹ := by
  rw [Lagrange.interpolate_apply, Polynomial.eval_finsetSum]
  apply Finset.sum_congr rfl
  intro i _
  rw [Polynomial.eval_mul, Polynomial.eval_C]
  congr 1
  have hErase : ∏ j ∈ (Finset.range threshold).erase i, (if i = j then 1
          else (x - nodeX points j) * (nodeX points i - nodeX points j)⁻¹) =
        ∏ j ∈ Finset.range threshold,
          if i = j then 1
          else (x - nodeX points j) * (nodeX points i - nodeX points j)⁻¹ :=
    Finset.prod_erase _ (if_pos rfl)
  unfold Lagrange.basis
  rw [← hErase, Polynomial.eval_prod]
  apply Finset.prod_congr rfl
  intro j hJ
  have hApart : ¬i = j := (Finset.ne_of_mem_erase hJ).symm
  rw [if_neg hApart]
  unfold Lagrange.basisDivisor
  simp [mul_comm]

theorem checkPoints_eq_ok {seen : List BigNumber} (hCanon : ∀ point ∈ points, point.IsCanonical)
  (hNodup : (seen ++ points.map (·.x)).Nodup) : checkPoints seen points = .ok () := by
  induction points generalizing seen with
  | nil => rfl
  | cons point points ih =>
    have hPoint := hCanon point mem_cons_self
    have hNew : point.x ∉ seen := by
      intro hOld
      have hApart := disjoint_of_nodup_append hNodup
      exact hApart hOld mem_cons_self
    unfold checkPoints
    rw [if_neg (PointInFiniteField.inside_of_canonical hPoint), if_neg hNew]
    apply ih
    · intro other hOther
      exact hCanon other (mem_cons_of_mem point hOther)
    · rw [append_assoc]
      exact hNodup

theorem nodup_take (hDist : PointsDistinct points threshold) :
  ((points.take threshold).map (·.x)).Nodup := by
  rw [nodup_iff_injective_get]
  intro i j hEq
  have hI := i.isLt
  have hJ := j.isLt
  simp only [length_map, length_take] at hI hJ
  apply Fin.ext
  apply hDist
  · exact Finset.mem_coe.mpr (Finset.mem_range.mpr (lt_of_lt_of_le hI (Nat.min_le_left _ _)))
  · exact Finset.mem_coe.mpr (Finset.mem_range.mpr (lt_of_lt_of_le hJ (Nat.min_le_left _ _)))
  · unfold nodeX
    rw [getD_eq_getElem _ _ (lt_of_lt_of_le hI (Nat.min_le_right _ _)),
      getD_eq_getElem _ _ (lt_of_lt_of_le hJ (Nat.min_le_right _ _))]
    simp only [get_eq_getElem, getElem_map, getElem_take] at hEq
    rw [hEq]

structure IsDetermined (polynomial : ShamirPolynomial) : Prop where
  pos : 1 ≤ polynomial.threshold
  le_max : polynomial.threshold ≤ maxShamirShares
  le_length : polynomial.threshold ≤ polynomial.points.length
  canonical : PointsCanonical polynomial.points polynomial.threshold
  distinct : PointsDistinct polynomial.points polynomial.threshold

theorem assertPolynomialThreshold_eq_ok {pointCount minimum : Nat} (hMin : minimum ≤ threshold)
  (hMax : threshold ≤ maxShamirShares) (hCount : threshold ≤ pointCount) :
  assertPolynomialThreshold threshold pointCount minimum = .ok () := by
  have hSafe : isSafeInteger threshold = true := by
    rw [isSafeInteger_iff]
    exact Nat.le_trans hMax (by decide)
  unfold assertPolynomialThreshold
  simp [hSafe, Nat.not_lt.mpr hMin, Nat.not_lt.mpr hMax, Nat.not_lt.mpr hCount]

theorem valueAt_eq_ok
  {polynomial : ShamirPolynomial} (hPolynomial : polynomial.IsDetermined) (x : BigNumber) :
  ∃ value, polynomial.valueAt x = .ok value ∧ (0 ≤ value ∧ value < p) ∧
      ((value : Int) : ZMod p) =
        (Lagrange.interpolate (Finset.range polynomial.threshold) (nodeX polynomial.points)
          (nodeY polynomial.points)).eval ((x : Int) : ZMod p) := by
  rcases lagrangeSum_eq_ok
      (x := umod x p)
      hPolynomial.distinct (Nat.le_refl polynomial.threshold) with
    ⟨value, hSum, hCanon, hValue⟩
  refine ⟨value, ?_, hCanon, ?_⟩
  · have hPoints : checkPoints [] (polynomial.points.take polynomial.threshold) = .ok () := by
      apply checkPoints_eq_ok
      · intro point hPoint
        rcases getElem_of_mem hPoint with ⟨i, hI, hEq⟩
        rw [length_take] at hI
        have hCanon := hPolynomial.canonical i (lt_of_lt_of_le hI (Nat.min_le_left _ _))
        rw [getD_eq_getElem _ _ (lt_of_lt_of_le hI (Nat.min_le_right _ _))] at hCanon
        rw [← hEq, getElem_take]
        exact hCanon
      · exact nodup_take hPolynomial.distinct
    unfold valueAt
    rw [assertPolynomialThreshold_eq_ok hPolynomial.pos
      hPolynomial.le_max hPolynomial.le_length, hPoints]
    exact hSum
  · rw [hValue, lagrange_eval, cast_umod]

end ShamirPolynomial

end TsStack
