import RunTimings.Number.Numeral

/-!
# Markers — what a log line can report

A run has eight fixed steps, which the logs number from one and this library from zero, and any
number of cycles, whose indices are taken as they stand. A marker line that carries a number out of
range is an error and not noise.
-/

namespace RunTimings

/-- The number of steps of a run. -/
def stepCount : Nat := 8

/-- A step of a run; `Step 1` of a log is step 0. -/
abbrev StepIndex := Fin stepCount

/-- What a marker line reports. -/
inductive Marker where
  | beginStep (step : StepIndex) (timestamp : Int)
  | endStep (step : StepIndex) (timestamp : Int)
  | startCycle (cycle : Nat) (timestamp : Int)
  | endId (cycle : Nat) (timestamp : Int)
  | waiting (cycle : Nat) (wait : Int)
deriving DecidableEq, Repr

/-- The places where a marker line has a number. -/
inductive NumberField where
  | step
  | cycle
  | timestamp
  | waitTime
deriving DecidableEq, Repr

/-- The name of a number in messages. -/
def NumberField.name : NumberField → String
  | .step => "step"
  | .cycle => "cycle"
  | .timestamp => "timestamp"
  | .waitTime => "wait time"

/-- Why a marker line cannot be used. -/
inductive MarkerError where
  | stepOutOfRange (step : Nat)
  | doesNotFit (field : NumberField) (numeral : List Char)
deriving DecidableEq, Repr

/-- The wording of a marker error; the numeral is shown as the line has it. -/
def MarkerError.message : MarkerError → String
  | .stepOutOfRange step => s!"step {step} is outside 1..={stepCount}"
  | .doesNotFit field numeral =>
    s!"number \"{String.ofList numeral}\" in {field.name} does not fit"

end RunTimings
