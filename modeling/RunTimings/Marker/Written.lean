import RunTimings.Marker.Basic
import RunTimings.Number.Range64

/-!
# Written markers — numerals first, numbers later

A line is recognised by its form alone; only then are its numerals read. So a number out of range is
an error of a marker line, and the numbers of a line are judged in the order in which they stand.
-/

namespace RunTimings

/-- A marker as a line has it, its numerals unread. -/
inductive WrittenMarker where
  | beginStep (step timestamp : List Char)
  | endStep (step timestamp : List Char)
  | startCycle (cycle timestamp : List Char)
  | endId (cycle timestamp : List Char)
  | waiting (cycle wait : List Char)
deriving DecidableEq, Repr

/-- The number of a numeral without a sign. -/
def readUnsigned (field : NumberField) (numeral : List Char) : Except MarkerError Nat :=
  if Unsigned64 (Numeral.value numeral) then .ok (Numeral.value numeral)
  else .error (.doesNotFit field numeral)

/-- The number of a numeral that may have a sign. -/
def readSigned (field : NumberField) (numeral : List Char) : Except MarkerError Int :=
  if Signed64 (Numeral.signedValue numeral) then .ok (Numeral.signedValue numeral)
  else .error (.doesNotFit field numeral)

/-- The step that a log calls by its number, counted from one. -/
def readStep (numeral : List Char) : Except MarkerError StepIndex := do
  let step ← readUnsigned .step numeral
  if h : 1 ≤ step ∧ step ≤ stepCount then return ⟨step - 1, by omega⟩
  else throw (.stepOutOfRange step)

/-- The marker, once its numerals are read from left to right. -/
def WrittenMarker.read : WrittenMarker → Except MarkerError Marker
  | .beginStep step timestamp =>
    return .beginStep (← readStep step) (← readSigned .timestamp timestamp)
  | .endStep step timestamp =>
    return .endStep (← readStep step) (← readSigned .timestamp timestamp)
  | .startCycle cycle timestamp =>
    return .startCycle (← readUnsigned .cycle cycle) (← readSigned .timestamp timestamp)
  | .endId cycle timestamp =>
    return .endId (← readUnsigned .cycle cycle) (← readSigned .timestamp timestamp)
  | .waiting cycle wait =>
    return .waiting (← readUnsigned .cycle cycle) (← readSigned .waitTime wait)

end RunTimings
