/-!
# Binary64 numbers taken apart

A binary64 number is not a number, an infinity, or a whole number of units that are a power of two.
Its bits hold a sign, eleven bits of exponent and fifty-two bits of mantissa; a normal number has
one more bit of mantissa than is written down.
-/

namespace RunTimings

/-- The parts of a binary64 number. A finite one is `mantissa * 2 ^ exponent`, with its sign. -/
inductive Binary64 where
  | nan
  | infinite (negative : Bool)
  | finite (negative : Bool) (mantissa : Nat) (exponent : Int)
deriving DecidableEq, Repr

/-- The parts that a pattern of 64 bits stands for. -/
def Binary64.ofBits (bits : Nat) : Binary64 :=
  let negative := decide (bits / Nat.pow 2 63 % 2 = 1)
  let scale : Nat := bits / Nat.pow 2 52 % Nat.pow 2 11
  let fraction : Nat := bits % Nat.pow 2 52
  if scale = Nat.pow 2 11 - 1 then
    if fraction = 0 then .infinite negative else .nan
  else if scale = 0 then .finite negative fraction (-1074)
  else .finite negative (Nat.pow 2 52 + fraction) ((scale : Int) - 1075)

/-- The parts of a number. -/
def Binary64.ofFloat (x : Float) : Binary64 :=
  .ofBits x.toBits.toNat

end RunTimings
