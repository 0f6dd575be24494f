import RunTimings.Number.Binary64
import RunTimings.Number.Fixed
import RunTimings.Number.Shortest

/-!
# Texts of binary64 numbers

Two kinds of text: with a fixed number of places, and with the fewest digits. The latter is plain
for decimal exponents in a certain range and scientific otherwise; where the range ends, how an
exponent is written and where a tie goes is up to the document in which the number stands
(`FloatStyle`).
-/

namespace RunTimings

/-- The decisions a document makes about numbers with the fewest digits. -/
structure FloatStyle where
  /-- Which of two equally short and equally near decimals is taken. -/
  tie : Tie
  /-- The least exponent that is written out. -/
  plainFrom : Int
  /-- The greatest exponent that is written out. -/
  plainTo : Int
  /-- What stands in front of an exponent that is not negative. -/
  plus : List Char
deriving DecidableEq, Repr

/-- A minus sign, if there is one. -/
def signText (negative : Bool) : List Char :=
  if negative then ['-'] else []

/-- A decimal written out, with at least one digit on either side of the point. -/
def Scientific.plain (d : Scientific) : List Char :=
  if d.exponent < 0 then
    '0' :: '.' :: (List.replicate (-d.exponent - 1).toNat '0' ++ d.digits)
  else
    let places := d.exponent.toNat + 1
    let fraction := d.digits.drop places
    d.digits.take places ++ List.replicate (places - d.digits.length) '0' ++
      '.' :: (if fraction = [] then ['0'] else fraction)

/-- A decimal with an exponent; the point is left out after a single digit. -/
def Scientific.withExponent (plus : List Char) (d : Scientific) : List Char :=
  let mantissa :=
    match d.digits with
    | first :: second :: rest => first :: '.' :: second :: rest
    | digits => digits
  mantissa ++ 'e' :: ((if d.exponent < 0 then [] else plus) ++ Numeral.ofInt d.exponent)

/-- A decimal as a style wants it. -/
def FloatStyle.decimal (style : FloatStyle) (d : Scientific) : List Char :=
  if style.plainFrom ≤ d.exponent ∧ d.exponent ≤ style.plainTo then d.plain
  else d.withExponent style.plus

/-- The text of a number that is not finite. -/
def nonFiniteText : Binary64 → List Char
  | .infinite negative => signText negative ++ "inf".toList
  | _ => "NaN".toList

/-- A number with the fewest digits that read back. -/
def FloatStyle.text (style : FloatStyle) (x : Float) : List Char :=
  match Binary64.ofFloat x with
  | .finite negative mantissa exponent =>
    signText negative ++ style.decimal (shortestDecimal style.tie mantissa exponent)
  | other => nonFiniteText other

/-- A number rounded to some places. -/
def placesText (places : Nat) (x : Float) : List Char :=
  match Binary64.ofFloat x with
  | .finite negative mantissa exponent =>
    signText negative ++ fixedText places (toPlaces places mantissa exponent)
  | other => nonFiniteText other

end RunTimings
