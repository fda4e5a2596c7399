import TsStack.Primitives.KeyShares

/-
  Recovery of a private key from its backup shares.

  The shares of a key are values of one polynomial, so any
  `threshold` of them determine the polynomial, and with it
  the key, which is its value at zero.
-/

-- Reading Shares

open List Option

namespace TsStack

open Curve PointInFiniteField BigNumber

theorem isHexDigit_digitChar : ∀ digit < 16, (isDigit (Nat.digitChar digit) ||
      ('a' ≤ Nat.digitChar digit && Nat.digitChar digit ≤ 'f')) = true := by
  decide

theorem hexByteString_all (byte : UInt8) :
  ((hexByteString byte).all fun char => isDigit char || ('a' ≤ char && char ≤ 'f')) = true := by
  have hByte := byte.toNat_lt
  apply List.all_eq_true.mpr
  intro char hChar
  unfold hexByteString at hChar
  rw [mem_pair] at hChar
  rcases hChar with rfl | rfl
  · exact isHexDigit_digitChar _ (by omega)
  · exact isHexDigit_digitChar _ (by omega)

theorem isShareIntegrity_take_toHex {msg : Bytes} (hLen : 4 ≤ msg.length) :
  isShareIntegrity ((toHex msg).take 8) = true := by
  unfold isShareIntegrity
  rw [Bool.and_eq_true]
  constructor
  · rw [beq_iff_eq, length_take, length_toHex]
    omega
  · apply List.all_eq_true.mpr
    intro char hChar
    rcases mem_flatMap.mp (mem_of_mem_take hChar) with ⟨byte, _, hByte⟩
    exact List.all_eq_true.mp (hexByteString_all byte) char hByte

theorem isShareIntegrity_length {text : JsString} (hText : isShareIntegrity text = true) :
  text.length = 8 := by
  unfold isShareIntegrity at hText
  rw [Bool.and_eq_true, beq_iff_eq] at hText
  exact hText.1

theorem dot_not_mem_integrity {text : JsString} (hText : isShareIntegrity text = true) :
  '.' ∉ text := by
  intro hDot
  unfold isShareIntegrity at hText
  rw [Bool.and_eq_true] at hText
  have hChar := List.all_eq_true.mp hText.2 '.' hDot
  revert hChar
  decide

/- The decimal text of every threshold is read back. -/
theorem toDigits_threshold : ∀ threshold < maxShamirShares + 1, 2 ≤ threshold →
    isShareThreshold (Nat.toDigits 10 threshold) = true ∧
      numberOfDigits (Nat.toDigits 10 threshold) = threshold ∧ '.' ∉ Nat.toDigits 10 threshold ∧
      (Nat.toDigits 10 threshold).length ≤ 3 := by
  decide +kernel

structure ShareData (threshold : Nat) (integrity : JsString) : Prop where
  two_le : 2 ≤ threshold
  le_max : threshold ≤ maxShamirShares
  integrity : isShareIntegrity integrity = true

namespace ShareData

variable {threshold : Nat} {integrity : JsString}

theorem digits (hData : ShareData threshold integrity) :
  isShareThreshold (Nat.toDigits 10 threshold) = true ∧
    numberOfDigits (Nat.toDigits 10 threshold) = threshold ∧ '.' ∉ Nat.toDigits 10 threshold ∧
    (Nat.toDigits 10 threshold).length ≤ 3 :=
  toDigits_threshold threshold (Nat.lt_succ_of_le hData.le_max) hData.two_le

theorem assertKeyShareCollection_eq_ok
  (hData : ShareData threshold integrity) {points : List PointInFiniteField}
  (hNonempty : points ≠ []) (hCount : points.length ≤ maxShamirShares) :
  assertKeyShareCollection ⟨points, threshold, integrity⟩ = .ok () := by
  have hSafe : isSafeInteger threshold = true := by
    rw [isSafeInteger_iff]
    exact Nat.le_trans hData.le_max (by decide)
  unfold assertKeyShareCollection
  simp [hSafe, hData.integrity, hNonempty, Nat.not_lt.mpr hData.two_le,
    Nat.not_lt.mpr hData.le_max, Nat.not_lt.mpr hCount]

end ShareData

namespace KeyShares

variable {threshold : Nat} {integrity : JsString}

section

variable (hData : ShareData threshold integrity)

include hData

theorem splitOn_shareText (point : PointInFiniteField) :
  (shareText threshold integrity point).splitOn '.' =
    [toBase58 (BigNumber.toArray point.x), toBase58 (BigNumber.toArray point.y),
      Nat.toDigits 10 threshold, integrity] := by
  unfold shareText PointInFiniteField.toString
  simp only [append_assoc, cons_append]
  rw [splitOn_append_cons_self_of_not_mem (dot_not_mem_toBase58 _),
    splitOn_append_cons_self_of_not_mem (dot_not_mem_toBase58 _),
    splitOn_append_cons_self_of_not_mem hData.digits.2.2.1,
    splitOn_eq_singleton (dot_not_mem_integrity hData.integrity)]

theorem length_shareText {point : PointInFiniteField} (hPoint : point.IsCanonical) :
  (shareText threshold integrity point).length ≤
    maxBackupShareLength := by
  have hX := isBase58Field_length
    (isBase58Field_toBase58 hPoint.1)
  have hY := isBase58Field_length
    (isBase58Field_toBase58 hPoint.2)
  have hDigits := hData.digits.2.2.2
  have hIntegrity := isShareIntegrity_length hData.integrity
  unfold shareText PointInFiniteField.toString maxBackupShareLength
  simp only [length_append, length_cons]
  omega

theorem readShare_shareText {point : PointInFiniteField}
  (hPoint : point.IsCanonical) {state : KeyShares} {idx : Nat}
  (hState : idx ≠ 0 → state.threshold = threshold ∧ state.integrity = integrity) :
  state.readShare idx (shareText threshold integrity point) =
    .ok ⟨state.points ++ [point], threshold, integrity⟩ := by
  have hX := isBase58Field_toBase58 hPoint.1
  have hY := isBase58Field_toBase58 hPoint.2
  have hThreshold : ¬(idx ≠ 0 ∧ state.threshold ≠ threshold) := by
    rintro ⟨hIdx, hApart⟩
    exact hApart (hState hIdx).1
  have hIntegrity : ¬(idx ≠ 0 ∧ state.integrity ≠ integrity) := by
    rintro ⟨hIdx, hApart⟩
    exact hApart (hState hIdx).2
  unfold readShare
  rw [if_neg (Nat.not_lt.mpr (length_shareText hData hPoint)), splitOn_shareText hData]
  dsimp only
  unfold readParts
  rw [hX, hY, hData.digits.1, hData.integrity,
    hData.digits.2.1, if_neg hThreshold, if_neg hIntegrity]
  change (fromString point.toString >>= _) = _
  rw [fromString_toString hPoint]
  rfl

end

variable {points : List PointInFiniteField}

section

variable (hData : ShareData threshold integrity) (hPoints : ∀ point ∈ points, point.IsCanonical)

include hData hPoints

theorem readShares_shareText (state : List PointInFiniteField) (idx : Nat) :
  readShares ⟨state, threshold, integrity⟩ idx (points.map (shareText threshold integrity)) =
    .ok ⟨state ++ points, threshold, integrity⟩ := by
  induction points generalizing state idx with
  | nil =>
    rw [append_nil]
    rfl
  | cons point points ih =>
    rw [map_cons]
    unfold readShares
    rw [readShare_shareText hData (hPoints point mem_cons_self) (fun _ => ⟨rfl, rfl⟩)]
    change readShares _ _ _ = _
    rw [ih (fun other hOther => hPoints other (mem_cons_of_mem point hOther)),
      append_assoc]
    rfl

/- Shares of one key are accepted, and read back. -/
theorem fromBackupFormat_shareText
  (hNonempty : points ≠ []) (hCount : points.length ≤ maxShamirShares) :
  fromBackupFormat (points.map (shareText threshold integrity)) =
    .ok ⟨points, threshold, integrity⟩ := by
  have hLen : ¬((points.map (shareText threshold integrity)).length = 0 ∨
        (points.map (shareText threshold integrity)).length > maxShamirShares) := by
    rw [length_map, not_or]
    constructor
    · exact fun hZero => hNonempty (length_eq_zero_iff.mp hZero)
    · exact Nat.not_lt.mpr hCount
  have hRead : readShares ⟨[], 0, []⟩ 0 (points.map (shareText threshold integrity)) =
        .ok ⟨points, threshold, integrity⟩ := by
    cases points with
    | nil => exact absurd rfl hNonempty
    | cons point points =>
      rw [map_cons]
      unfold readShares
      rw [readShare_shareText hData (hPoints point mem_cons_self)
        (fun hIdx => absurd rfl hIdx)]
      change readShares _ _ _ = _
      rw [readShares_shareText hData (fun other hOther =>
        hPoints other (mem_cons_of_mem point hOther))]
      rfl
  unfold fromBackupFormat
  rw [if_neg hLen, hRead]
  change (assertKeyShareCollection _ >>= _) = _
  rw [hData.assertKeyShareCollection_eq_ok hNonempty hCount]
  rfl

theorem toBackupFormat_eq_ok (hNonempty : points ≠ []) (hCount : points.length ≤ maxShamirShares) :
  toBackupFormat ⟨points, threshold, integrity⟩ =
    .ok (points.map (shareText threshold integrity)) := by
  unfold toBackupFormat
  rw [hData.assertKeyShareCollection_eq_ok hNonempty hCount]
  change mapM _ points = _
  apply mapM_eq_ok
  intro point hPoint
  unfold writeShare
  rw [fromString_toString (hPoints point hPoint)]
  exact if_neg (not_not.mpr rfl)

end

end KeyShares

-- The Polynomial of a Key

def ShareDraws.CoordinatesDistinct (draws : ShareDraws) (threshold : Nat) : Prop :=
  ((0 : BigNumber) ::
    (List.range (threshold - 1)).map fun index => (ShamirPolynomial.drawnPoint draws index).x).Nodup

instance
  (draws : ShareDraws) (threshold : Nat) : Decidable (draws.CoordinatesDistinct threshold) :=
  inferInstanceAs (Decidable (List.Nodup _))

namespace ShamirPolynomial

/- The polynomial over the field. -/
noncomputable def interpolation (polynomial : ShamirPolynomial) :
  Polynomial (ZMod Curve.p) :=
  Lagrange.interpolate (Finset.range polynomial.threshold)
    (nodeX polynomial.points) (nodeY polynomial.points)

/- A coordinate is determined by its element of the field. -/
theorem eq_of_cast_eq {a b : BigNumber} (hA : 0 ≤ a ∧ a < p) (hB : 0 ≤ b ∧ b < p)
  (hEq : ((a : Int) : ZMod p) = (b : Int)) : a = b := by
  have hMod := (ZMod.intCast_eq_intCast_iff' a b p).mp hEq
  rw [Int.emod_eq_of_lt hA.1 hA.2, Int.emod_eq_of_lt hB.1 hB.2] at hMod
  exact hMod

variable
    {points : List PointInFiniteField} {threshold : Nat}

section

variable (hPoints : ∀ point ∈ points, point.IsCanonical)

include hPoints

theorem pointsCanonical_of_forall (hThreshold : threshold ≤ points.length) :
  PointsCanonical points threshold := by
  intro i hI
  have hLen := Nat.lt_of_lt_of_le hI hThreshold
  rw [getD_eq_getElem _ _ hLen]
  exact hPoints _ (getElem_mem hLen)

theorem pointsDistinct_of_nodup (hNodup : (points.map (·.x)).Nodup)
  (hThreshold : threshold ≤ points.length) : PointsDistinct points threshold := by
  intro i hI j hJ hEq
  rw [Finset.mem_coe, Finset.mem_range] at hI hJ
  have hILen := Nat.lt_of_lt_of_le hI hThreshold
  have hJLen := Nat.lt_of_lt_of_le hJ hThreshold
  unfold nodeX at hEq
  rw [getD_eq_getElem _ _ hILen, getD_eq_getElem _ _ hJLen] at hEq
  have hX := eq_of_cast_eq (hPoints _ (getElem_mem hILen)).1
    (hPoints _ (getElem_mem hJLen)).1 hEq
  have hInj := nodup_iff_injective_getElem.mp hNodup
  have hFin : (⟨i, by rwa [length_map]⟩ : Fin (points.map (·.x)).length) =
        ⟨j, by rwa [length_map]⟩ := by
    apply hInj
    simpa only [getElem_map] using hX
  exact congrArg Fin.val hFin

theorem isDetermined_of_nodup (hNodup : (points.map (·.x)).Nodup)
  (hPos : 1 ≤ threshold) (hMax : threshold ≤ maxShamirShares)
  (hThreshold : threshold ≤ points.length) : IsDetermined ⟨points, threshold⟩ where
  pos := hPos
  le_max := hMax
  le_length := hThreshold
  canonical := pointsCanonical_of_forall hPoints hThreshold
  distinct := pointsDistinct_of_nodup hPoints hNodup hThreshold

end

theorem create_eq_ok (points : List PointInFiniteField) (threshold : Option Nat)
  (hPos : 1 ≤ threshold.getD points.length)
  (hThreshold : threshold.getD points.length ≤ points.length)
  (hCount : points.length ≤ maxShamirShares) :
  create points threshold = .ok ⟨points, threshold.getD points.length⟩ := by
  unfold create
  rw [if_neg (by omega), assertPolynomialThreshold_eq_ok hPos
    (Nat.le_trans hThreshold hCount) hThreshold]
  rfl

def keyPoints (draws : ShareDraws) (key : BigNumber) (threshold : Nat) : List PointInFiniteField :=
  PointInFiniteField.ofCoordinates 0 (BigNumber.ofArray (BigNumber.toArray key)) ::
    (List.range (threshold - 1)).map (drawnPoint draws)

theorem length_keyPoints (draws : ShareDraws) (key : BigNumber) (hThreshold : 2 ≤ threshold) :
  (keyPoints draws key threshold).length = threshold := by
  unfold keyPoints
  rw [length_cons, length_map, length_range]
  omega

variable
    {draws : ShareDraws} {key : BigNumber}

theorem fromPrivateKey_eq_ok (hThreshold : 2 ≤ threshold) (hMax : threshold ≤ maxShamirShares) :
  fromPrivateKey draws key threshold = .ok ⟨keyPoints draws key threshold, threshold⟩ := by
  have hSafe : isSafeInteger threshold = true := by
    rw [isSafeInteger_iff]
    exact Nat.le_trans hMax (by decide)
  have hLen := length_keyPoints draws key hThreshold
  have hCreate := create_eq_ok (keyPoints draws key threshold) none
    (by rw [getD_none]; omega) (by rw [getD_none]) (by rw [hLen]; exact hMax)
  rw [getD_none, hLen] at hCreate
  unfold fromPrivateKey
  simp only [hSafe, Nat.not_lt.mpr hThreshold, Nat.not_lt.mpr hMax, Bool.not_true, decide_false,
    Bool.or_self, Bool.false_eq_true, if_false]
  exact hCreate

theorem keyPoints_canonical (draws : ShareDraws) (key : BigNumber) (threshold : Nat) :
  ∀ point ∈ keyPoints draws key threshold,
    point.IsCanonical := by
  intro point hPoint
  rcases mem_cons.mp hPoint with rfl | hDrawn
  · exact ofCoordinates_canonical _ _
  · rcases List.mem_map.mp hDrawn with ⟨index, _, rfl⟩
    exact ofCoordinates_canonical _ _

theorem keyPoints_nodup (hDraws : draws.CoordinatesDistinct threshold) :
  ((keyPoints draws key threshold).map (·.x)).Nodup := by
  unfold keyPoints
  rw [map_cons, List.map_map]
  exact hDraws

theorem interpolation_eval_zero (hKey : 0 ≤ key ∧ key < p) (hThreshold : 2 ≤ threshold)
  (hDraws : draws.CoordinatesDistinct threshold) :
  (interpolation ⟨keyPoints draws key threshold, threshold⟩).eval 0 =
    ((key : Int) : ZMod p) := by
  have hDist := pointsDistinct_of_nodup (keyPoints_canonical draws key threshold)
    (keyPoints_nodup hDraws) (length_keyPoints draws key hThreshold).ge
  have hEval := Lagrange.eval_interpolate_at_node (nodeY (keyPoints draws key threshold)) hDist
    (Finset.mem_range.mpr (Nat.lt_of_lt_of_le Nat.zero_lt_two hThreshold))
  have hX : nodeX (keyPoints draws key threshold) 0 = 0 := by
    change (((umod 0 p) : Int) : ZMod p) = 0
    rw [cast_umod, Int.cast_zero]
  have hY : nodeY (keyPoints draws key threshold) 0 = ((key : Int) : ZMod p) := by
    change (((umod (ofArray (BigNumber.toArray key)) p) : Int) :
      ZMod p) = _
    rw [cast_umod, ofArray_toArray hKey.1]
  rw [hX, hY] at hEval
  exact hEval

end ShamirPolynomial

-- Drawn Shares

namespace PrivateKey

variable (primitives : KeyPrimitives) (draws : ShareDraws)

theorem drawX_spec (used : List BigNumber) (i : Nat) (left attempts : Nat) :
  drawX primitives draws used i left attempts = .error uniqueXError ∨
    ∃ x, drawX primitives draws used i left attempts = .ok x ∧
        x ≠ 0 ∧ x ∉ used ∧ 0 ≤ x ∧ x < p := by
  induction left generalizing attempts with
  | zero => exact .inl rfl
  | succ left ih =>
    unfold drawX
    dsimp only
    by_cases hUsed :
      candidateX primitives draws i attempts = 0 ∨ candidateX primitives draws i attempts ∈ used
    · rw [if_pos hUsed]
      exact ih (attempts + 1)
    · rw [if_neg hUsed]
      rw [not_or] at hUsed
      exact .inr ⟨_, rfl, hUsed.1, hUsed.2, umod_canonical _⟩

structure DrawnInvariant (curve : Polynomial (ZMod Curve.p)) (state : DrawnShares) : Prop where
  used : state.usedXCoordinates = state.points.map (·.x)
  nodup : (state.points.map (·.x)).Nodup
  canonical : ∀ point ∈ state.points, point.IsCanonical
  value : ∀ point ∈ state.points, ((point.y : Int) : ZMod Curve.p) =
        curve.eval ((point.x : Int) : ZMod Curve.p)

theorem DrawnInvariant.empty (curve : Polynomial (ZMod p)) : DrawnInvariant curve {} where
  used := rfl
  nodup := nodup_nil
  canonical := fun _ hPoint => absurd hPoint not_mem_nil
  value := fun _ hPoint => absurd hPoint not_mem_nil

theorem drawShare_spec
  {polynomial : ShamirPolynomial} (hPolynomial : polynomial.IsDetermined) {state : DrawnShares}
  (hState : DrawnInvariant polynomial.interpolation state) (i : Nat) :
  drawShare primitives draws polynomial state i = .error uniqueXError ∨
    ∃ next, drawShare primitives draws polynomial state i = .ok next ∧
        next.points.length = state.points.length + 1 ∧
        DrawnInvariant polynomial.interpolation next := by
  unfold drawShare
  rcases drawX_spec primitives draws state.usedXCoordinates i 5 0 with
    hError | ⟨x, hX, _, hNew, hCanon⟩
  · left
    rw [hError]
    rfl
  · right
    rcases ShamirPolynomial.valueAt_eq_ok hPolynomial x with ⟨y, hY, hYCanon, hValue⟩
    have hPointCanon : PointInFiniteField.IsCanonical ⟨x, y⟩ := ⟨hCanon, hYCanon⟩
    have hPoint : ofCoordinates x y = ⟨x, y⟩ :=
      ofCoordinates_of_canonical hPointCanon
    rw [hState.used] at hNew
    refine ⟨⟨state.usedXCoordinates ++ [x], state.points ++ [⟨x, y⟩]⟩, ?_, ?_, ?_⟩
    · rw [hX]
      change (polynomial.valueAt x >>= _) = _
      rw [hY, ← hPoint]
      rfl
    · rw [length_append]
      rfl
    · constructor
      case used =>
        rw [map_append, hState.used]
        rfl
      case nodup =>
        rw [map_append]
        exact nodup_append_comm.mp (nodup_cons.mpr ⟨hNew, hState.nodup⟩)
      case canonical =>
        intro point hMem
        rcases mem_concat_iff.mp hMem with hOld | hLast
        · exact hState.canonical point hOld
        · rw [hLast]
          exact ⟨hCanon, hYCanon⟩
      case value =>
        intro point hMem
        rcases mem_concat_iff.mp hMem with hOld | hLast
        · exact hState.value point hOld
        · rw [hLast]
          exact hValue

theorem drawShares_spec
  {polynomial : ShamirPolynomial} (hPolynomial : polynomial.IsDetermined) (indices : List Nat)
  {state : DrawnShares} (hState : DrawnInvariant polynomial.interpolation state) :
  indices.foldlM (drawShare primitives draws polynomial) state = .error uniqueXError ∨
    ∃ drawn, indices.foldlM (drawShare primitives draws polynomial) state = .ok drawn ∧
      drawn.points.length = state.points.length + indices.length ∧
      DrawnInvariant polynomial.interpolation drawn := by
  induction indices generalizing state with
  | nil => exact .inr ⟨state, rfl, rfl, hState⟩
  | cons i indices ih =>
    rw [foldlM_cons]
    rcases drawShare_spec primitives draws hPolynomial hState i with
      hError | ⟨next, hNext, hLen, hInv⟩
    · left
      rw [hError]
      rfl
    · rw [hNext]
      rcases ih hInv with hError | ⟨drawn, hDrawn, hCount, hRes⟩
      · exact .inl hError
      · refine .inr ⟨drawn, hDrawn, ?_, hRes⟩
        rw [hCount, hLen, length_cons]
        omega

-- Recovering a Key

variable {points : List PointInFiniteField}

theorem ownPoints_eq_ok (hPoints : ∀ point ∈ points, point.IsCanonical) :
  ownPoints points = .ok points := by
  induction points with
  | nil => rfl
  | cons point points ih =>
    have hPoint := hPoints point mem_cons_self
    unfold ownPoints
    rw [if_neg (inside_of_canonical hPoint),
      ih fun other hOther => hPoints other (mem_cons_of_mem point hOther),
      ofArray_toArray hPoint.1.1,
      ofArray_toArray hPoint.2.1,
      ofCoordinates_of_canonical hPoint]
    rfl

variable {key : BigNumber}

theorem key_canonical (hKey : 1 ≤ key ∧ key < n) : 0 ≤ key ∧ key < p := by
  constructor
  · exact le_trans zero_le_one hKey.1
  · apply lt_trans hKey.2
    exact_mod_cast n_lt_p

theorem ofBytes_toArray (hKey : 1 ≤ key ∧ key < n) : ofBytes (BigNumber.toArray key) = key := by
  have hNonneg : (0 : Int) ≤ key := le_trans zero_le_one hKey.1
  unfold ofBytes
  rw [ofArray_toArray hNonneg]
  exact Int.emod_eq_of_lt hNonneg hKey.2

theorem valueAt_zero
  (hPoints : ∀ point ∈ points, point.IsCanonical) (hNodup : (points.map (·.x)).Nodup)
  {curve : Polynomial (ZMod p)} (hDegree : curve.degree < points.length)
  (hValues : ∀ point ∈ points, ((point.y : Int) : ZMod p) =
        curve.eval ((point.x : Int) : ZMod p))
  (hPos : 1 ≤ points.length) (hMax : points.length ≤ maxShamirShares)
  (hKey : 0 ≤ key ∧ key < p) (hZero : curve.eval 0 = ((key : Int) : ZMod p)) :
  ShamirPolynomial.valueAt ⟨points, points.length⟩ 0 = .ok key := by
  have hDetermined :=
    ShamirPolynomial.isDetermined_of_nodup hPoints hNodup hPos hMax (Nat.le_refl points.length)
  have hCurve :
      curve = Lagrange.interpolate (Finset.range points.length) (ShamirPolynomial.nodeX points)
        (ShamirPolynomial.nodeY points) := by
    apply Lagrange.eq_interpolate_of_eval_eq _ hDetermined.distinct
    · rw [Finset.card_range]
      exact hDegree
    · intro i hI
      have hLen := Finset.mem_range.mp hI
      unfold ShamirPolynomial.nodeX ShamirPolynomial.nodeY
      rw [getD_eq_getElem _ _ hLen]
      exact (hValues _ (getElem_mem hLen)).symm
  rcases ShamirPolynomial.valueAt_eq_ok hDetermined 0 with ⟨value, hValue, hCanon, hEval⟩
  rw [Int.cast_zero] at hEval
  change ((value : Int) : ZMod p) =
    (Lagrange.interpolate (Finset.range points.length) (ShamirPolynomial.nodeX points)
      (ShamirPolynomial.nodeY points)).eval 0 at hEval
  rw [← hCurve, hZero] at hEval
  rw [hValue, ShamirPolynomial.eq_of_cast_eq hCanon hKey hEval]

variable {threshold : Nat}

theorem fromKeyShares_eq_ok {primitives : KeyPrimitives} (hKey : 1 ≤ key ∧ key < n)
  (hData : ShareData threshold (integrityOf primitives key)) {curve : Polynomial (ZMod p)}
  (hDegree : curve.degree < threshold) (hZero : curve.eval 0 = ((key : Int) : ZMod p))
  (hPoints : ∀ point ∈ points, point.IsCanonical) (hNodup : (points.map (·.x)).Nodup)
  (hValues : ∀ point ∈ points, ((point.y : Int) : ZMod p) =
        curve.eval ((point.x : Int) : ZMod p))
  (hEnough : threshold ≤ points.length) (hCount : points.length ≤ maxShamirShares) :
  fromKeyShares primitives ⟨points, threshold, integrityOf primitives key⟩ = .ok key := by
  have hTwo := hData.two_le
  have hField := key_canonical hKey
  have hNonempty : points ≠ [] := by
    rintro rfl
    rw [length_nil] at hEnough
    omega
  have hOwned : ∀ point ∈ points.take threshold,
      point.IsCanonical :=
    fun point hPoint => hPoints point (mem_of_mem_take hPoint)
  have hOwnedNodup : ((points.take threshold).map (·.x)).Nodup := by
    rw [map_take]
    exact hNodup.sublist (take_sublist threshold _)
  have hLen : (points.take threshold).length = threshold := by
    rw [length_take]
    exact Nat.min_eq_left hEnough
  have hCreate := ShamirPolynomial.create_eq_ok (points.take threshold) (some threshold)
    (by rw [getD_some]; omega) (by rw [getD_some, hLen])
    (by rw [hLen]; exact hData.le_max)
  have hValue := valueAt_zero hOwned hOwnedNodup (by rw [hLen]; exact hDegree)
    (fun point hPoint => hValues point (mem_of_mem_take hPoint)) (by rw [hLen]; omega)
    (by rw [hLen]; exact hData.le_max) hField hZero
  rw [hLen] at hValue
  unfold fromKeyShares
  rw [hData.assertKeyShareCollection_eq_ok hNonempty hCount]
  change (requireThreshold _ >>= _) = _
  unfold requireThreshold
  rw [if_neg (Nat.not_lt.mpr hEnough)]
  change (ownPoints (points.take threshold) >>= _) = _
  rw [ownPoints_eq_ok hOwned]
  change (requireUnique (points.take threshold) >>= _) = _
  unfold requireUnique
  rw [if_pos hOwnedNodup]
  change (ShamirPolynomial.create (points.take threshold) (some threshold) >>= _) = _
  rw [hCreate, getD_some]
  change (ShamirPolynomial.valueAt _ 0 >>= _) = _
  rw [hValue]
  change requireIntegrity primitives _ (ofBytes (BigNumber.toArray key)) = _
  rw [ofBytes_toArray hKey]
  exact if_neg (not_not.mpr rfl)

theorem checkShareCounts_eq_ok
  {totalShares : Nat} (hThreshold : 2 ≤ threshold) (hTotal : threshold ≤ totalShares)
  (hMax : totalShares ≤ maxShamirShares) : checkShareCounts threshold totalShares = .ok () := by
  have hTotalSafe : isSafeInteger totalShares = true := by
    rw [isSafeInteger_iff]
    exact Nat.le_trans hMax (by decide)
  have hThresholdSafe : isSafeInteger threshold = true := by
    rw [isSafeInteger_iff]
    exact Nat.le_trans (Nat.le_trans hTotal hMax) (by decide)
  unfold checkShareCounts
  rw [hTotalSafe, hThresholdSafe]
  rw [if_neg (by decide), if_neg (by omega),
    if_neg (by omega), if_neg (by omega), if_neg (by omega)]

theorem toKeyShares_spec {draws : ShareDraws} (hKey : 0 ≤ key ∧ key < p) {totalShares : Nat}
  (hThreshold : 2 ≤ threshold) (hTotal : threshold ≤ totalShares)
  (hMax : totalShares ≤ maxShamirShares) (hDraws : draws.CoordinatesDistinct threshold) :
  toKeyShares primitives draws key threshold totalShares = .error uniqueXError ∨
    ∃ (drawn : DrawnShares) (curve : Polynomial (ZMod p)),
      toKeyShares primitives draws key threshold totalShares =
        .ok ⟨drawn.points, threshold, integrityOf primitives key⟩ ∧
      drawn.points.length = totalShares ∧ DrawnInvariant curve drawn ∧ curve.degree < threshold ∧
      curve.eval 0 = ((key : Int) : ZMod p) := by
  have hThresholdMax := Nat.le_trans hTotal hMax
  have hLen := ShamirPolynomial.length_keyPoints draws key hThreshold
  have hDetermined := ShamirPolynomial.isDetermined_of_nodup
    (ShamirPolynomial.keyPoints_canonical draws key threshold)
    (ShamirPolynomial.keyPoints_nodup hDraws)
    (Nat.le_of_succ_le hThreshold) hThresholdMax hLen.ge
  unfold toKeyShares
  rw [checkShareCounts_eq_ok hThreshold hTotal hMax]
  change (ShamirPolynomial.fromPrivateKey draws key threshold >>= _) = _ ∨ _
  rw [ShamirPolynomial.fromPrivateKey_eq_ok hThreshold hThresholdMax]
  rcases drawShares_spec primitives draws hDetermined (range totalShares)
      (DrawnInvariant.empty _) with
    hError | ⟨drawn, hDrawn, hCount, hInv⟩
  · left
    rw [ok_bind, hError]
    rfl
  · right
    refine ⟨drawn, _, ?_, ?_, hInv, ?_, ?_⟩
    · rw [ok_bind, ok_bind, hDrawn]
      rfl
    · rw [hCount, length_range]
      exact Nat.zero_add totalShares
    · have hDegree := Lagrange.degree_interpolate_lt (ShamirPolynomial.nodeY
          (ShamirPolynomial.keyPoints draws key threshold))
        hDetermined.distinct
      rw [Finset.card_range] at hDegree
      exact hDegree
    · exact ShamirPolynomial.interpolation_eval_zero hKey hThreshold hDraws

theorem exists_of_subperm_map {α β : Type} {f : α → β} {values : List α} {selected : List β}
  (hSel : List.Subperm selected (values.map f)) :
  ∃ chosen : List α, List.Subperm chosen values ∧ selected = chosen.map f := by
  rcases hSel with ⟨sorted, hPerm, hSub⟩
  rcases sublist_map_iff.mp hSub with ⟨part, hPart, rfl⟩
  have hComp : (Relation.Comp (· = map f ·) List.Perm) selected part := by
    rw [eq_map_comp_perm]
    exact hPerm.symm
  rcases hComp with ⟨chosen, hEq, hChosen⟩
  exact ⟨chosen, ⟨part, hChosen.symm, hPart⟩, hEq⟩

/-
  A split ends with its shares, or runs out of attempts. Each share is accepted by itself, and any
  shares that are enough give the key, in any order.
-/
theorem toBackupShares_recover (primitives : KeyPrimitives) (draws : ShareDraws) (key : BigNumber)
  (threshold totalShares : Nat) (hKey : 1 ≤ key ∧ key < Curve.n) (hThreshold : 2 ≤ threshold)
  (hTotal : threshold ≤ totalShares) (hMax : totalShares ≤ 255)
  (hHash : (primitives.publicKeyHash key).length = 20)
  (hDraws : draws.CoordinatesDistinct threshold) :
  (∀ error, toBackupShares primitives draws key threshold totalShares = .error error →
      error = uniqueXError) ∧
  ∀ shares, toBackupShares primitives draws key threshold totalShares = .ok shares →
      shares.length = totalShares ∧
      (∀ share ∈ shares, ∃ keyShares, KeyShares.fromBackupFormat [share] = .ok keyShares) ∧
      ∀ selected, List.Subperm selected shares → threshold ≤ selected.length →
          fromBackupShares primitives selected = .ok key := by
  have hField := key_canonical hKey
  have hData : ShareData threshold (integrityOf primitives key) := by
    constructor
    case two_le => exact hThreshold
    case le_max => exact Nat.le_trans hTotal hMax
    case integrity => exact isShareIntegrity_take_toHex (by omega)
  unfold toBackupShares
  rcases toKeyShares_spec primitives hField hThreshold hTotal hMax hDraws with
    hError | ⟨drawn, curve, hShares, hLength, hDrawn, hDegree, hZero⟩
  · rw [hError]
    constructor
    · intro error hEq
      exact (Except.error.inj hEq).symm
    · intro shares hEq
      exact nomatch hEq
  · have hNonempty : drawn.points ≠ [] := by
      intro hNil
      rw [hNil, List.length_nil] at hLength
      omega
    rw [hShares]
    rw [ok_bind, KeyShares.toBackupFormat_eq_ok hData
      hDrawn.canonical hNonempty (by rw [hLength]; exact hMax)]
    constructor
    · intro error hEq
      exact nomatch hEq
    · intro shares hEq
      have hTexts := (Except.ok.inj hEq).symm
      subst hTexts
      refine ⟨by rw [List.length_map, hLength], ?_, ?_⟩
      · intro share hShare
        rcases List.mem_map.mp hShare with ⟨point, hPoint, rfl⟩
        have hCanonical : ∀ other ∈ [point], other.IsCanonical := by
          intro other hOther
          rw [List.mem_singleton.mp hOther]
          exact hDrawn.canonical point hPoint
        have hOne : 1 ≤ maxShamirShares := by decide
        exact ⟨_, KeyShares.fromBackupFormat_shareText hData
          hCanonical (List.cons_ne_nil point []) hOne⟩
      · intro selected hSelected hEnough
        rcases exists_of_subperm_map hSelected with ⟨chosen, hChosen, rfl⟩
        rw [List.length_map] at hEnough
        have hPoints : ∀ point ∈ chosen, point.IsCanonical :=
          fun point hPoint => hDrawn.canonical point (hChosen.subset hPoint)
        have hCount : chosen.length ≤ maxShamirShares := by
          apply Nat.le_trans hChosen.length_le
          rw [hLength]
          exact hMax
        have hSome : chosen ≠ [] := by
          rintro rfl
          rw [List.length_nil] at hEnough
          omega
        have hNodup : (chosen.map (·.x)).Nodup := by
          rcases hChosen with ⟨part, hPerm, hSublist⟩
          have hPart := hDrawn.nodup.sublist (hSublist.map (·.x))
          exact (hPerm.map (·.x)).nodup_iff.mp hPart
        unfold fromBackupShares
        rw [KeyShares.fromBackupFormat_shareText hData hPoints hSome hCount]
        exact fromKeyShares_eq_ok hKey hData hDegree hZero hPoints hNodup (fun point hPoint =>
            hDrawn.value point (hChosen.subset hPoint))
          hEnough hCount

def echoPrimitives : KeyPrimitives where
  sha512hmac := fun _ message => message
  publicKeyHash := fun _ =>
    [0x75, 0x1e, 0x76, 0xe8, 0x19, 0x91, 0x96, 0xd4, 0x54,
      0x94, 0x1c, 0x45, 0xd1, 0xb3, 0xa3, 0x23, 0xf1, 0x43, 0x3b, 0xd6]

def countingDraws : ShareDraws where
  polynomial := fun index => ([UInt8.ofNat (index + 9)], [UInt8.ofNat (index + 4)])
  seed := [1, 2, 3]
  nonce := fun i attempts => [UInt8.ofNat (i + 5), UInt8.ofNat attempts]

theorem toBackupShares_recover_twoOfThree :
  (toBackupShares echoPrimitives countingDraws 1 2 3).isOk = true ∧
    ∀ shares, toBackupShares echoPrimitives countingDraws 1 2 3 = .ok shares →
        ∀ selected, List.Subperm selected shares → 2 ≤ selected.length →
            fromBackupShares echoPrimitives selected = .ok 1 := by
  constructor
  · decide +kernel
  · intro shares hShares
    have hRecover := toBackupShares_recover echoPrimitives
      countingDraws 1 2 3 (by decide) (by decide) (by decide) (by decide) (by decide) (by decide)
    exact (hRecover.2 shares hShares).2.2

end PrivateKey

end TsStack
