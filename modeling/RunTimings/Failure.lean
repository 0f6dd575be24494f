import RunTimings.FileSystem.Error
import RunTimings.Marker.Basic

/-!
# Failures — what ends an analysis

A failure ends the whole analysis. Problems that cost a single sample at most are diagnostics of a
report instead. Each failure has one message; some rest on a cause with a message of its own.
-/

namespace RunTimings

/-- The two timestamps of a cycle. -/
inductive CycleBound where
  | start
  | finish
deriving DecidableEq, Repr

/-- The name of a bound in messages. -/
def CycleBound.name : CycleBound → String
  | .start => "start"
  | .finish => "end"

/-- Why an analysis ends without a report. -/
inductive Failure where
  | stepOutOfRange (source : String) (line step : Nat)
  | doesNotFit (source : String) (line : Nat) (field : NumberField) (numeral : List Char)
  | cycleOutOfRange (source : String) (line cycle totalCycles : Nat)
  | waitOverflow (source : String) (line cycle : Nat)
  | missingBound (source : String) (cycle : Nat) (bound : CycleBound)
  | noParticipants (directory : String)
  | noAsker (directory : String)
  | noCycles
  | unlisted (directory : String) (error : FileError)
  | unopened (path : String) (error : FileError)
  | unread (source : String) (line : Nat) (error : FileError)
  | unwritten (error : FileError)
deriving DecidableEq, Repr

/-- The failure that a marker error on a line of a log amounts to. -/
def Failure.ofMarker (source : String) (line : Nat) : MarkerError → Failure
  | .stepOutOfRange step => .stepOutOfRange source line step
  | .doesNotFit field numeral => .doesNotFit source line field numeral

/-- The message of a failure. -/
def Failure.message : Failure → String
  | .stepOutOfRange source line step =>
    s!"{source}:{line}: {(MarkerError.stepOutOfRange step).message}"
  | .doesNotFit source line field numeral =>
    s!"{source}:{line}: {(MarkerError.doesNotFit field numeral).message}"
  | .cycleOutOfRange source line cycle totalCycles =>
    s!"{source}:{line}: cycle {cycle} is not below the configured total of {totalCycles} " ++
      "(is the cycle count wrong for this dataset?)"
  | .waitOverflow source line cycle =>
    s!"{source}:{line}: wait time for cycle {cycle} overflows the per-cycle total"
  | .missingBound source cycle bound =>
    s!"{source}: asker has no {bound.name} timestamp for cycle {cycle}"
  | .noParticipants directory =>
    s!"no participant files found in {directory}; cannot average wait times"
  | .noAsker directory => s!"no asker file (steps_*) found in {directory}"
  | .noCycles => "total cycle count must be at least 1"
  | .unlisted directory _ => s!"read directory {directory}"
  | .unopened path _ => s!"open log file {path}"
  | .unread source line _ => s!"read {source}:{line}"
  | .unwritten error => error.message

/-- The message of what lies behind a failure, where something does. -/
def Failure.cause : Failure → Option String
  | .doesNotFit _ _ field numeral => some (MarkerError.doesNotFit field numeral).message
  | .unlisted _ error => some error.message
  | .unopened _ error => some error.message
  | .unread _ _ error => some error.message
  | _ => none

end RunTimings
