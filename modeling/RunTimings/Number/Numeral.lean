/-!
# Numerals — decimal digits read and written

A numeral is a row of ASCII digits, of any length and with any number of leading zeros; a signed one
may have a minus sign in front. Reading what was written gives the number back (`value_ofNat`,
`signedValue_ofInt`).
-/

namespace RunTimings.Numeral

/-- The number that a row of digits stands for. -/
def value (digits : List Char) : Nat :=
  Nat.ofDigitChars 10 digits 0

/-- The number that a row of digits with or without a minus sign stands for. -/
def signedValue : List Char → Int
  | '-' :: digits => -(value digits : Int)
  | digits => value digits

/-- The numeral of a number, without leading zeros. -/
def ofNat (n : Nat) : List Char :=
  Nat.toDigits 10 n

/-- The numeral of an integer, a minus sign in front of a negative one. -/
def ofInt : Int → List Char
  | .ofNat n => ofNat n
  | .negSucc n => '-' :: ofNat (n + 1)

theorem value_ofNat (n : Nat) : value (ofNat n) = n :=
  Nat.ofDigitChars_toDigits (by decide) (by decide)

theorem isDigit_of_mem_ofNat {n : Nat} {c : Char} (h : c ∈ ofNat n) : c.isDigit = true :=
  Nat.isDigit_of_mem_toDigits (by decide) (by decide) h

theorem signedValue_ofInt (n : Int) : signedValue (ofInt n) = n := by
  cases n with
  | ofNat n =>
    have digits : ∀ r, ofNat n ≠ '-' :: r := by
      intro r h
      have := isDigit_of_mem_ofNat (n := n) (c := '-') (by simp [h])
      simp at this
    rw [ofInt, signedValue, value_ofNat]
    · rfl
    · exact digits
  | negSucc n =>
    rw [ofInt, signedValue, value_ofNat]
    rfl

end RunTimings.Numeral
