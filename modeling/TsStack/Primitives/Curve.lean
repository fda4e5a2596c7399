import TsStack.Lib.PrimeCertificate

/-
  The orders of `primitives/Curve.ts`: the prime of the field
  of the coordinates and the order of the base point.
-/

-- Orders

namespace TsStack.Curve

def p : Nat :=
  0xfffffffffffffffffffffffffffffffffffffffffffffffffffffffefffffc2f

def n : Nat :=
  0xfffffffffffffffffffffffffffffffebaaedce6af48a03bbfd25e8cd0364141

theorem n_lt_p : n < p := by decide

theorem p_lt : p < 256 ^ 32 := by decide

-- Primality of the Field Order

/- The primes below ten thousand that divide in the steps. -/
def smallPrimes : List Nat :=
  [2, 3, 5, 7, 11, 29, 31, 53, 101, 103, 239, 419, 443, 971,
    1373, 1627, 2621, 2657, 4423, 5323, 7723]

def steps : List PrimeCertificate.Step :=
  [{ number := 13441, generator := 11
     factors := [2, 2, 2, 2, 2, 2, 2, 3, 5, 7] },
    { number := 20113, generator := 10
      factors := [2, 2, 2, 2, 3, 419] },
    { number := 24809, generator := 6
      factors := [2, 2, 2, 7, 443] },
    { number := 41201, generator := 3
      factors := [2, 2, 2, 2, 5, 5, 103] },
    { number := 96557, generator := 2
      factors := [2, 2, 101, 239] },
    { number := 1206781, generator := 10
      factors := [2, 2, 3, 5, 20113] },
    { number := 7240687, generator := 3
      factors := [2, 3, 1206781] },
    { number := 13331831, generator := 13
      factors := [2, 5, 971, 1373] },
    { number := 107590001, generator := 3
      factors := [2, 2, 2, 2, 5, 5, 5, 5, 7, 29, 53] },
    { number := 173378833005251801, generator := 6
      factors := [2, 2, 2, 5, 5, 2621, 24809, 13331831] },
    { number := 22149492674086928081353, generator := 5
      factors := [2, 2, 2, 3, 5323, 173378833005251801] },
    { number := 132896956044521568488119, generator := 6
      factors := [2, 3, 22149492674086928081353] },
    { number := 255515944373312847190720520512484175977
      generator := 3
      factors := [2, 2, 2, 7, 7, 11, 1627, 2657, 4423, 41201, 96557, 7240687, 107590001] },
    { number := 205115282021455665897114700593932402728804164701536103180137503955397371
      generator := 10
      factors := [2, 3, 5, 29, 29, 31, 7723, 132896956044521568488119,
          255515944373312847190720520512484175977] },
    { number := p
      generator := 3
      factors := [2, 3, 7, 13441,
          205115282021455665897114700593932402728804164701536103180137503955397371] }]

theorem smallPrimes_prime : ∀ number ∈ smallPrimes, number.Prime := by
  intro number hNum
  simp only [smallPrimes, List.mem_cons, List.not_mem_nil, or_false] at hNum
  rcases hNum with rfl | rfl | rfl | rfl | rfl | rfl |
    rfl | rfl | rfl | rfl | rfl | rfl | rfl | rfl | rfl |
    rfl | rfl | rfl | rfl | rfl | rfl
  all_goals norm_num

theorem steps_check : PrimeCertificate.check 256 smallPrimes steps = true := by
  decide +kernel

theorem prime_p : p.Prime :=
  PrimeCertificate.prime_of_check smallPrimes_prime steps_check _ (List.mem_of_getLast? rfl)

end TsStack.Curve
