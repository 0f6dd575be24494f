import RunTimings.Marker.Basic

/-!
# Diagnostics — problems that do not end an analysis

While begin and end markers are paired, a log may turn out to be odd at some line. The pairing goes
on, and the oddity is reported beside the result.
-/

namespace RunTimings

/-- What is odd about a step marker. -/
inductive Problem where
  /-- An end while the step is not open; it gives no sample. -/
  | endWithoutBegin
  /-- A begin while the step is open since `replaced`; the later begin counts. -/
  | beginWhileOpen (replaced : Int)
  /-- An end before its begin; the sample is kept. -/
  | negativeDuration (duration : Int)
deriving DecidableEq, Repr

/-- A problem and where it was met; steps count from zero. -/
structure Diagnostic where
  source : String
  line : Nat
  step : Nat
  problem : Problem
deriving DecidableEq, Repr

/-- The wording of a problem, which counts steps from one as the logs do. -/
def Problem.message (step : Nat) : Problem → String
  | .endWithoutBegin => s!"end of step {step + 1} without a matching begin"
  | .beginWhileOpen replaced =>
    s!"begin of step {step + 1} while still open since {replaced}; using the later begin"
  | .negativeDuration duration => s!"step {step + 1} has negative duration {duration}"

/-- The wording of a diagnostic. -/
def Diagnostic.message (d : Diagnostic) : String :=
  s!"{d.source}:{d.line}: {d.problem.message d.step}"

end RunTimings
