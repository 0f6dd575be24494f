import RunTimings.Dataset.Basic
import RunTimings.FileSystem.View
import RunTimings.Journal
import RunTimings.Measure.CycleBounds
import RunTimings.Measure.Waits
import RunTimings.Number.FloatText
import RunTimings.Report.Cycles
import RunTimings.Report.Steps

/-!
# Analyses — from the files of a run to a report

The files are read one after the other, and the first one that cannot be used ends the analysis.
What is found in a file is noted as soon as it is known.
-/

namespace RunTimings

/-- How notes write numbers: plain from `0.0001` to sixteen digits before the point, without a sign
in an exponent that is not negative; ties go up. -/
def noteStyle : FloatStyle :=
  ⟨.up, -4, 15, []⟩

/-- A number in a note. -/
def noteNumber (x : Float) : String :=
  String.ofList (noteStyle.text x)

/-- A number that may be missing in a note. -/
def noteOption : Option Float → String
  | none => "None"
  | some x => "Some(" ++ noteNumber x ++ ")"

/-- A list in a note. -/
def noteList (items : List String) : String :=
  "[" ++ ", ".intercalate items ++ "]"

/-- What can be read of a log. -/
def openLog (files : FileView) (path : String) : Journaled LogContent :=
  .ofExcept ((files.load path).mapError (.unopened path))

/-- Fails if there is a reason to. -/
def demandNone : Option Failure → Journaled Unit
  | none => .done ()
  | some failure => .fail failure

/-- What is noted of a step that a log begins and does not end. -/
def neverEndedNote (source : String) : StepIndex × Int → String
  | (step, start) => s!"{source}: step {step.val + 1} begun at {start} never ended"

/-- The steps of one log. Its problems are noted even if it turns out to be unusable further on. -/
def analyseStepLog (files : FileView) (path : String) : Journaled StepSummary := do
  let log ← openLog files path
  let tracked := trackSteps path log
  .note .warn (tracked.state.diagnostics.map Diagnostic.message)
  demandNone tracked.stop
  .note .debug (tracked.state.neverEnded.map (neverEndedNote path))
  let summary := tracked.state.summary
  .note .info [path ++ ": step means " ++ noteList (summary.means.toList.map noteOption)]
  return summary

/-- What is noted of the steps without data. -/
def missingSteps (aggregates : List StepAggregate) : List String :=
  (aggregates.filter (·.contributors = 0)).map fun aggregate =>
    s!"step {aggregate.step + 1} has no data in any file"

/-- The report on the steps of a run. -/
def analyseSteps (files : FileView) (dataset : StepDataset) : Journaled StepReport := do
  let summaries ← Journaled.each (analyseStepLog files) dataset.paths
  let report := StepReport.ofFiles summaries
  .note .info (missingSteps report.steps)
  return report

/-- The waits in one participant's log. -/
def analyseWaitLog (files : FileView) (totalCycles : Nat) (path : String) :
    Journaled (List Int) := do
  let log ← openLog files path
  let waits ← .ofExcept (sumWaits path totalCycles log)
  .note .debug [path ++ ": waits " ++ noteList (waits.map toString)]
  return waits

/-- The durations of the cycles in the asker's log. -/
def analyseAskerLog (files : FileView) (totalCycles : Nat) (path : String) :
    Journaled (List Int) := do
  let log ← openLog files path
  let durations ← .ofExcept (measureCycles path totalCycles log)
  .note .info [path ++ ": cycle durations " ++ noteList (durations.map toString)]
  return durations

/-- The mean waits over all participants, of whom there has to be one. -/
def averageWaits (dataset : CycleDataset) (totals : WaitTotals) : Except Failure (List Float) :=
  match totals.averages with
  | none => .error (.noParticipants dataset.peerDirectory)
  | some averages => .ok averages

/-- The report on the cycles of a run. The participants come first; without any, the asker's log is
not even opened. -/
def analyseCycles (files : FileView) (dataset : CycleDataset) : Journaled CycleReport := do
  let waits ← Journaled.each (analyseWaitLog files dataset.totalCycles) dataset.participants
  let totals := waits.foldl WaitTotals.add (WaitTotals.zero dataset.totalCycles)
  let averages ← .ofExcept (averageWaits dataset totals)
  .note .info [s!"average wait over {totals.participants} participants: " ++
    noteList (averages.map noteNumber)]
  let durations ← analyseAskerLog files dataset.totalCycles dataset.asker
  return .ofMeasures totals.participants averages durations

end RunTimings
