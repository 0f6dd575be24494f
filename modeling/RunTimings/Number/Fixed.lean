import RunTimings.Number.Numeral

/-!
# Fixed decimals — a number rounded to some places

The exact value is rounded to a multiple of the last place, and a value in the middle goes to the
even multiple. The rounded quotient is never further away than half a unit (`roundHalfEven_near`).
-/

namespace RunTimings

/-- The whole number nearest to a quotient; of two that are equally near, the even one. -/
def roundHalfEven (numerator denominator : Nat) : Nat :=
  let whole := numerator / denominator
  let rest := numerator % denominator
  if 2 * rest < denominator then whole
  else if denominator < 2 * rest then whole + 1
  else whole + whole % 2

theorem roundHalfEven_near (numerator : Nat) {denominator : Nat} (positive : 0 < denominator) :
    2 * numerator ≤ (2 * roundHalfEven numerator denominator + 1) * denominator ∧
      (2 * roundHalfEven numerator denominator) * denominator ≤ 2 * numerator + denominator := by
  have whole := Nat.div_add_mod numerator denominator
  have small := Nat.mod_lt numerator positive
  have parity := Nat.mod_two_eq_zero_or_one (numerator / denominator)
  have expand : ∀ n, 2 * n * denominator = 2 * (denominator * n) := fun n => by
    rw [Nat.mul_assoc, Nat.mul_comm n]
  simp only [roundHalfEven, Nat.add_mul, expand]
  split
  · omega
  · split
    · rw [Nat.mul_add]
      omega
    · rw [Nat.mul_add]
      rcases parity with even | odd
      · rw [even]
        omega
      · rw [odd]
        omega

/-- The number `mantissa * 2 ^ exponent`, counted in units of `10 ^ -places`. -/
def toPlaces (places mantissa : Nat) (exponent : Int) : Nat :=
  roundHalfEven (mantissa * Nat.pow 2 exponent.toNat * Nat.pow 10 places)
    (Nat.pow 2 (-exponent).toNat)

/-- A count of units of `10 ^ -places`, with the point in its place. -/
def fixedText (places units : Nat) : List Char :=
  let fraction := Numeral.ofNat (units % Nat.pow 10 places)
  Numeral.ofNat (units / Nat.pow 10 places) ++
    '.' :: (List.replicate (places - fraction.length) '0' ++ fraction)

end RunTimings
