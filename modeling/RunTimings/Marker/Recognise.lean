import RunTimings.Marker.Written
import RunTimings.Text.Blank
import RunTimings.Text.WordChar

/-!
# Recognising markers — the five forms of a marker line

```text
Begin Step 3 ... 1642605876650          (other text may stand in front)
End Step 3 ... 1642605877012
Start Cycle 0: 1642605876650
End ID: 1_1test0, 1642605886492
Waiting, id time: 4_2test17 130
```

Blank characters may follow. Each recogniser takes the fixed words off the front and the numerals
where they must stand; a numeral is always taken whole, since the character after it is never a
digit. The time of a step line is its last numeral, after a blank character.
-/

namespace RunTimings

open RunTimings.Text

/-- What follows the given words at the start of a text. -/
def afterWords : List Char → List Char → Option (List Char)
  | [], text => some text
  | _ :: _, [] => none
  | w :: words, c :: text => if w = c then afterWords words text else none

theorem afterWords_eq_some_iff {words text rest : List Char} :
    afterWords words text = some rest ↔ text = words ++ rest := by
  fun_induction afterWords words text with
  | case1 => simp [eq_comm]
  | case2 => simp
  | case3 w words text ih => simp [ih]
  | case4 w words c text ne => simp [Ne.symm ne]

/-- The numeral at the start of a text, and what follows it. -/
def leadingNumeral (text : List Char) : Option (List Char × List Char) :=
  let digits := text.takeWhile Char.isDigit
  if digits = [] then none else some (digits, text.dropWhile Char.isDigit)

/-- The numeral at the start of a text, with its minus sign if there is one. -/
def leadingSigned : List Char → Option (List Char × List Char)
  | '-' :: text => (leadingNumeral text).map fun (digits, rest) => ('-' :: digits, rest)
  | text => leadingNumeral text

/-- Whether the text goes on, and with a character that ends a word. -/
def endsWord : List Char → Bool
  | [] => false
  | c :: _ => !isWordChar c

/-- The numeral at the end of a text: after a blank character, before which the text is one line,
and followed by nothing but blank characters. -/
def timeAtEnd (text : List Char) : Option (List Char) :=
  let back := (trimEnd text).reverse
  let digits := back.takeWhile Char.isDigit
  match back.dropWhile Char.isDigit with
  | [] => none
  | w :: before =>
    if digits ≠ [] ∧ isBlank w ∧ '\n' ∉ before then some digits.reverse else none

/-- The cycle of an id, the numeral after the word `test` at its end. -/
def cycleOfId (id : List Char) : Option (List Char) := do
  let digits := id.reverse.takeWhile Char.isDigit
  let _ ← afterWords "test".toList.reverse (id.reverse.dropWhile Char.isDigit)
  if digits = [] then none else some digits.reverse

/-- A step line after its first words: the step number, and the time at its end. -/
def stepLine (words text : List Char) : Option (List Char × List Char) := do
  let rest ← afterWords words text
  let (step, rest) ← leadingNumeral rest
  if endsWord rest then return (step, ← timeAtEnd rest) else none

/-- A numeral with which a line ends. -/
def lastNumeral (numeral : Option (List Char × List Char)) : Option (List Char) := do
  let (digits, rest) ← numeral
  if rest.all isBlank then some digits else none

/-- A line that tells when a cycle starts. -/
def cycleStartLine (text : List Char) : Option (List Char × List Char) := do
  let rest ← afterWords "Start Cycle ".toList text
  let (cycle, rest) ← leadingNumeral rest
  let rest ← afterWords ": ".toList rest
  return (cycle, ← lastNumeral (leadingNumeral rest))

/-- A line that tells when a cycle's id is done. -/
def idEndLine (text : List Char) : Option (List Char × List Char) := do
  let rest ← afterWords "End ID: ".toList text
  let token := rest.takeWhile fun c => !isBlank c
  let cycle ← if token.getLast? = some ',' then cycleOfId token.dropLast else none
  let rest ← afterWords " ".toList (rest.dropWhile fun c => !isBlank c)
  return (cycle, ← lastNumeral (leadingNumeral rest))

/-- A line that tells how long a cycle's id waited. -/
def waitingLine (text : List Char) : Option (List Char × List Char) := do
  let rest ← afterWords "Waiting, id time: ".toList text
  let cycle ← cycleOfId (rest.takeWhile fun c => !isBlank c)
  let rest ← afterWords " ".toList (rest.dropWhile fun c => !isBlank c)
  return (cycle, ← lastNumeral (leadingSigned rest))

/-- The words that open a begin marker. -/
def beginWords : List Char := "Begin Step".toList

/-- The marker that a text spells, if it has one of the five forms. -/
def recognise (text : List Char) : Option WrittenMarker :=
  (stepLine (beginWords ++ [' ']) text).map (fun (step, time) => .beginStep step time)
    <|> (stepLine "End Step ".toList text).map (fun (step, time) => .endStep step time)
    <|> (cycleStartLine text).map (fun (cycle, time) => .startCycle cycle time)
    <|> (idEndLine text).map (fun (cycle, time) => .endId cycle time)
    <|> (waitingLine text).map (fun (cycle, wait) => .waiting cycle wait)

/-- The text from the first occurrence of the words on. -/
def fromFirst (words : List Char) : List Char → Option (List Char)
  | [] => none
  | c :: text =>
    if words.isPrefixOf (c :: text) then some (c :: text) else fromFirst words text

/-- What a line reports. A begin marker may stand after other text, so whatever stands before the
first occurrence of its words is left out of account; a line that has none of the forms is noise. -/
def classify (line : List Char) : Except MarkerError (Option Marker) :=
  match recognise ((fromFirst beginWords line).getD line) with
  | none => .ok none
  | some written => written.read.map some

end RunTimings
