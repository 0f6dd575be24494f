/-!
# Means of exact totals

Totals are added up exactly. Only the finished total and the count are rounded to binary64, each to
nearest, and then divided; so a mean does not depend on the order of what was added.
-/

namespace RunTimings

/-- The total divided by the count, both rounded first. -/
def quotient (total : Int) (count : Nat) : Float :=
  Float.ofInt total / Float.ofNat count

/-- The exact total of some numbers. -/
def total (samples : List Int) : Int :=
  samples.foldr (· + ·) 0

/-- The mean of some numbers, if there are any. -/
def mean (samples : List Int) : Option Float :=
  if samples = [] then none else some (quotient (total samples) samples.length)

end RunTimings
