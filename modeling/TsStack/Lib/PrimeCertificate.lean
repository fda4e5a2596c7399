import Mathlib.NumberTheory.LucasPrimality
import Mathlib.Tactic.NormNum.Prime

/-
  Primality of large numbers by certificates that are
  checked by evaluation.

  A step names a number, an element of the multiplicative
  group that is claimed to generate it, and the prime factors
  of the number less one, each as often as it divides.  The
  factors are certified by earlier steps.
-/

-- Powers

namespace TsStack.PrimeCertificate

def powMod (modulus : Nat) : Nat → Nat → Nat → Nat
| 0, _, _ => 1 % modulus
| bits + 1, base, exponent =>
  let half := powMod modulus bits (base * base % modulus) (exponent / 2)
  if exponent % 2 = 1 then base * half % modulus else half

variable {bits : Nat}

theorem powMod_eq {modulus : Nat} {base exponent : Nat} (hBits : exponent < 2 ^ bits) :
  powMod modulus bits base exponent = base ^ exponent % modulus := by
  induction bits generalizing base exponent with
  | zero =>
    have hZero : exponent = 0 := by simpa using hBits
    subst hZero
    rw [pow_zero]
    rfl
  | succ bits ih =>
    have hHalf : exponent / 2 < 2 ^ bits := by
      rw [pow_succ] at hBits
      omega
    have hSquare : powMod modulus bits (base * base % modulus) (exponent / 2) =
          base ^ (2 * (exponent / 2)) % modulus := by
      rw [ih hHalf, ← Nat.pow_mod, ← sq, ← pow_mul]
    unfold powMod
    dsimp only
    rw [hSquare]
    by_cases hOdd : exponent % 2 = 1
    · rw [if_pos hOdd]
      have hExponent : exponent = 2 * (exponent / 2) + 1 := by omega
      conv_rhs => rw [hExponent]
      rw [Nat.mul_mod_mod, pow_succ, Nat.mul_comm]
    · rw [if_neg hOdd]
      congr 2
      omega

-- Certificates

structure Step where
  number : Nat
  generator : Nat
  factors : List Nat
deriving Repr

def Step.check (bits : Nat) (known : List Nat) (step : Step) : Bool :=
  2 ≤ step.number && step.number ≤ 2 ^ bits && step.factors.all (known.contains ·) &&
    step.factors.prod == step.number - 1 &&
    powMod step.number bits step.generator (step.number - 1) == 1 &&
    step.factors.all fun factor =>
      powMod step.number bits step.generator ((step.number - 1) / factor) != 1

def check (bits : Nat) : List Nat → List Step → Bool
| _, [] => true
| known, step :: steps => step.check bits known && check bits (step.number :: known) steps

theorem natCast_pow_eq_one_iff {modulus base exponent : Nat} (hModulus : 2 ≤ modulus) :
  (base : ZMod modulus) ^ exponent = 1 ↔ base ^ exponent % modulus = 1 := by
  rw [← Nat.cast_pow, ← Nat.cast_one, ZMod.natCast_eq_natCast_iff']
  rw [Nat.mod_eq_of_lt (show 1 < modulus from hModulus)]

theorem Step.prime {known : List Nat} {step : Step} (hKnown : ∀ number ∈ known, number.Prime)
  (hCheck : step.check bits known = true) : step.number.Prime := by
  unfold Step.check at hCheck
  simp only [Bool.and_eq_true, decide_eq_true_iff, List.all_eq_true, beq_iff_eq, bne_iff_ne,
    List.contains_iff_mem] at hCheck
  rcases hCheck with ⟨⟨⟨⟨⟨hTwo, hBits⟩, hFactors⟩, hProduct⟩, hOne⟩, hOrder⟩
  have hExponent : ∀ exponent, exponent ≤ step.number - 1 → exponent < 2 ^ bits := by
    intro exponent hLe
    omega
  apply lucas_primality step.number (step.generator : ZMod step.number)
  · rw [natCast_pow_eq_one_iff hTwo, ← powMod_eq (hExponent _ (Nat.le_refl _))]
    exact hOne
  · intro factor hPrime hDivides
    rw [← hProduct] at hDivides
    have hListed : factor ∈ step.factors := by
      rcases (Prime.dvd_prod_iff hPrime.prime).mp hDivides with ⟨other, hOther, hDvd⟩
      have hOtherPrime := hKnown other (hFactors other hOther)
      have hEq := (Nat.prime_dvd_prime_iff_eq hPrime hOtherPrime).mp hDvd
      rw [hEq]
      exact hOther
    rw [Ne, natCast_pow_eq_one_iff hTwo, ← powMod_eq (hExponent _ (Nat.div_le_self _ _))]
    exact hOrder factor hListed

theorem prime_of_check
  {known : List Nat} {steps : List Step} (hKnown : ∀ number ∈ known, number.Prime)
  (hCheck : check bits known steps = true) : ∀ step ∈ steps, step.number.Prime := by
  induction steps generalizing known with
  | nil => simp
  | cons step steps ih =>
    unfold check at hCheck
    rw [Bool.and_eq_true] at hCheck
    have hStep := step.prime hKnown hCheck.1
    intro other hOther
    rcases List.mem_cons.mp hOther with hFst | hRest
    · rw [hFst]
      exact hStep
    · apply ih _ hCheck.2 other hRest
      intro number hNum
      rcases List.mem_cons.mp hNum with hNew | hOld
      · rw [hNew]
        exact hStep
      · exact hKnown number hOld

end TsStack.PrimeCertificate
