import RunTimings.Number.Numeral

/-!
# Shortest decimals — the fewest digits that read back

The decimals that read back as `mantissa * 2 ^ exponent` are those no further away than half the gap
to the next binary64 number on either side; the ends belong to them if the mantissa is even. With a
small enough unit, the number and both ends are whole (`Span`), and the search for the shortest
decimal is one on natural numbers: the grids of multiples of a power of ten are tried from coarse to
fine, and the first with a point in the span has it next to the number. The last grid has the number
itself, so there is always an answer, and it lies in the span (`inside_shortest`).
-/

namespace RunTimings

/-- A number and the ends of the span of decimals that read back as it, all as multiples of a
ten-power unit `10 ^ -scale`. -/
structure Span where
  low : Nat
  value : Nat
  high : Nat
  closed : Bool
  scale : Nat
  low_lt : low < value
  lt_high : value < high

/-- Whether a multiple of the unit reads back as the number. -/
def Span.inside (s : Span) (n : Nat) : Bool :=
  if s.closed then decide (s.low ≤ n ∧ n ≤ s.high) else decide (s.low < n ∧ n < s.high)

theorem Span.inside_value (s : Span) : s.inside s.value = true := by
  have := s.low_lt
  have := s.lt_high
  unfold inside
  split <;> simp <;> omega

/-- The span of a positive number. The unit is a quarter of the last place of the mantissa, or a
ten-power part of it: the next number below a power of two is half as far away as the one above. -/
def Span.ofBinary (mantissa : Nat) (exponent : Int) (positive : 0 < mantissa) : Span :=
  let quarter := exponent - 2
  let factor := Nat.pow 5 (-quarter).toNat * Nat.pow 2 quarter.toNat
  let below := if mantissa = Nat.pow 2 52 ∧ -1074 < exponent then 1 else 2
  have filled : 0 < factor := Nat.mul_pos (Nat.pow_pos (by decide)) (Nat.pow_pos (by decide))
  { low := (4 * mantissa - below) * factor
    value := 4 * mantissa * factor
    high := (4 * mantissa + 2) * factor
    closed := mantissa % 2 = 0
    scale := (-quarter).toNat
    low_lt := Nat.mul_lt_mul_of_pos_right (by grind) filled
    lt_high := Nat.mul_lt_mul_of_pos_right (by omega) filled }

/-- Which of two neighbours is taken if the number is in the middle. -/
inductive Tie where
  | toEven
  | up
deriving DecidableEq, Repr

/-- The multiple of the step next to the number that reads back, counted in steps. -/
def Span.onGrid (s : Span) (tie : Tie) (step : Nat) : Option Nat :=
  let below := s.value / step
  let above := below + 1
  let down := s.value - below * step
  let up := above * step - s.value
  match s.inside (below * step), s.inside (above * step) with
  | false, false => none
  | true, false => some below
  | false, true => some above
  | true, true =>
    if down < up then some below
    else if up < down then some above
    else match tie with
      | .toEven => some (if below % 2 = 0 then below else above)
      | .up => some above

theorem Span.inside_of_onGrid {s : Span} {tie : Tie} {step n : Nat}
    (h : s.onGrid tie step = some n) : s.inside (n * step) = true := by
  unfold onGrid at h
  grind

/-- The shortest decimal with no more than the given number of places given up: its digits as a
number, and the places. -/
def Span.shortestFrom (s : Span) (tie : Tie) : Nat → Nat × Nat
  | 0 => (s.value, 0)
  | places + 1 =>
    match s.onGrid tie (Nat.pow 10 (places + 1)) with
    | some n => (n, places + 1)
    | none => s.shortestFrom tie places

theorem Span.inside_shortestFrom (s : Span) (tie : Tie) (places : Nat) :
    s.inside ((s.shortestFrom tie places).1 * Nat.pow 10 (s.shortestFrom tie places).2) = true := by
  induction places with
  | zero => simpa [shortestFrom] using s.inside_value
  | succ places ih =>
    rw [shortestFrom]
    split
    · rename_i n found
      exact inside_of_onGrid found
    · exact ih

/-- A decimal in scientific form: `d.ddd * 10 ^ exponent`, the digits without a zero at the end
unless there is no other. -/
structure Scientific where
  digits : List Char
  exponent : Int
deriving DecidableEq, Repr

/-- Digits without the zeros at the end. -/
def trimZeros (digits : List Char) : List Char :=
  (digits.reverse.dropWhile (· = '0')).reverse

/-- The shortest decimal of a span, its digits as a number and the places given up. The coarsest
grid tried is that of the first digit. -/
def Span.shortest (s : Span) (tie : Tie) : Nat × Nat :=
  s.shortestFrom tie ((Numeral.ofNat s.value).length - 1)

theorem Span.inside_shortest (s : Span) (tie : Tie) :
    s.inside ((s.shortest tie).1 * Nat.pow 10 (s.shortest tie).2) = true :=
  s.inside_shortestFrom tie _

/-- The shortest decimal that reads back as `mantissa * 2 ^ exponent`. -/
def shortestDecimal (tie : Tie) (mantissa : Nat) (exponent : Int) : Scientific :=
  if positive : 0 < mantissa then
    let s := Span.ofBinary mantissa exponent positive
    let (n, places) := s.shortest tie
    let digits := Numeral.ofNat n
    ⟨trimZeros digits, digits.length - 1 + places - s.scale⟩
  else ⟨['0'], 0⟩

end RunTimings
