import RunTimings.Measure.Intervals

/-!
# The step report — all files side by side

The means of one step are averaged over the files that have data for it. A file without data takes
no part: it neither adds a zero nor counts.
-/

namespace RunTimings

/-- The mean of one step over all files: the mean of the files' means, if any file has one, and how
many files have one. Steps count from zero. -/
structure StepAggregate where
  step : Nat
  mean : Option Float
  contributors : Nat
deriving DecidableEq, Repr

/-- The sum of some binary64 numbers from left to right. The sum of none is negative zero, which
leaves every number added to it as it is. -/
def floatSum (values : List Float) : Float :=
  values.foldl (· + ·) (-0.0)

/-- The mean of one step over the files. -/
def aggregateStep (files : List (PerStep (Option Float))) (step : StepIndex) : StepAggregate :=
  let values := files.filterMap (·.get step)
  { step := step.val
    mean := if values = [] then none else some (floatSum values / Float.ofNat values.length)
    contributors := values.length }

/-- The means of all steps over the files. -/
def aggregateSteps (files : List (PerStep (Option Float))) : List StepAggregate :=
  PerStep.steps.map (aggregateStep files)

/-- What the logs of a run tell of its steps: each file on its own, and all together. -/
structure StepReport where
  files : List StepSummary
  steps : List StepAggregate
deriving DecidableEq, Repr

/-- The report on some files, in their order. -/
def StepReport.ofFiles (files : List StepSummary) : StepReport :=
  ⟨files, aggregateSteps (files.map (·.means))⟩

/-- All that was odd, file by file. -/
def StepReport.diagnostics (report : StepReport) : List Diagnostic :=
  report.files.flatMap (·.diagnostics)

end RunTimings
