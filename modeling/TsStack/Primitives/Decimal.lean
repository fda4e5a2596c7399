import TsStack.Primitives.Hex

/-
  Decimal text of natural numbers.
-/

-- Decimal Text

namespace TsStack

def isDigit (char : Char) : Bool :=
  '0' ≤ char && char ≤ '9'

def numberOfDigits (text : JsString) : Nat :=
  text.foldl (fun number char => 10 * number + (char.toNat - 48)) 0

theorem digitChar_toNat : ∀ digit < 10, (Nat.digitChar digit).toNat - 48 = digit := by
  decide

theorem isDigit_digitChar : ∀ digit < 10, isDigit (Nat.digitChar digit) = true := by
  decide

theorem numberOfDigits_append_singleton (text : JsString) (char : Char) :
  numberOfDigits (text ++ [char]) = 10 * numberOfDigits text + (char.toNat - 48) := by
  unfold numberOfDigits
  rw [List.foldl_append]
  rfl

theorem numberOfDigits_toDigits (n : Nat) : numberOfDigits (Nat.toDigits 10 n) = n := by
  induction n using Nat.strongRecOn with
  | _ n ih =>
    by_cases hSmall : n < 10
    · rw [Nat.toDigits_of_lt_base hSmall]
      change 10 * 0 + ((Nat.digitChar n).toNat - 48) = n
      rw [digitChar_toNat n hSmall]
      omega
    · rw [Nat.toDigits_of_base_le (by omega) (Nat.le_of_not_lt hSmall),
        numberOfDigits_append_singleton, ih (n / 10) (by omega),
        digitChar_toNat (n % 10) (by omega)]
      omega

theorem toDigits_injective : Function.Injective (Nat.toDigits 10) := by
  intro a b hEq
  rw [← numberOfDigits_toDigits a, hEq, numberOfDigits_toDigits]

theorem toDigits_isDigit (n : Nat) : ∀ char ∈ Nat.toDigits 10 n, isDigit char = true := by
  induction n using Nat.strongRecOn with
  | _ n ih =>
    intro char hChar
    by_cases hSmall : n < 10
    · rw [Nat.toDigits_of_lt_base hSmall, List.mem_singleton] at hChar
      rw [hChar]
      exact isDigit_digitChar n hSmall
    · rw [Nat.toDigits_of_base_le (by omega) (Nat.le_of_not_lt hSmall)] at hChar
      rcases mem_concat_iff.mp hChar with hInit | hLast
      · exact ih (n / 10) (by omega) char hInit
      · rw [hLast]
        exact isDigit_digitChar (n % 10) (by omega)

end TsStack
