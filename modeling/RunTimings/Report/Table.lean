import RunTimings.Number.FloatText
import RunTimings.Report.Cycles
import RunTimings.Report.Steps
import RunTimings.Text.Column

/-!
# Reports as tables

Every table is a list of lines. Means have two decimal places. The column of file names is as wide
as the longest name takes bytes, and never narrower than its title; it is filled up by characters.
-/

namespace RunTimings

open RunTimings.Text

/-- Lines put one below the other, each with a line feed. -/
def textOfLines (lines : List String) : String :=
  String.join (lines.map (· ++ "\n"))

/-- A mean with two decimal places. -/
def meanText (x : Float) : String :=
  String.ofList (placesText 2 x)

/-- The entry of a mean that may be missing. -/
def meanCell : Option Float → String
  | none => "-"
  | some x => meanText x

/-- A row that starts with the name of a file. -/
def fileRow (width : Nat) (name : String) (cells : List String) : String :=
  alignLeft width name ++ String.join (cells.map fun cell => " | " ++ alignRight 10 cell)

/-- A row of three columns. -/
def tripleRow (width : Nat) (first second third : String) : String :=
  alignRight width first ++ " | " ++ alignRight 12 second ++ " | " ++ alignRight 12 third

/-- The width of the column of file names: that of the longest, in bytes, or of the title. -/
def nameWidth (files : List StepSummary) : Nat :=
  files.foldl (fun width file => max width file.source.utf8ByteSize) "file".length

/-- The titles of the columns of a table of files. -/
def stepTitles : List String :=
  PerStep.steps.map fun step => s!"step {step.val + 1}"

/-- The table of files: one row for each file, one column for each step. -/
def fileTable (files : List StepSummary) : List String :=
  let width := nameWidth files
  fileRow width "file" stepTitles ::
    files.map fun file => fileRow width file.source (file.means.toList.map meanCell)

/-- The row of one step over all files. -/
def aggregateRow (a : StepAggregate) : String :=
  tripleRow 4 (toString (a.step + 1)) (a.mean.elim "excluded" meanText) (toString a.contributors)

/-- The table of steps: one row for each. -/
def aggregateTable (steps : List StepAggregate) : List String :=
  tripleRow 4 "step" "mean" "contributors" :: steps.map aggregateRow

/-- The list of diagnostics with its title; nothing at all if there are none. -/
def diagnosticLines (diagnostics : List Diagnostic) : List String :=
  if diagnostics = [] then []
  else "" :: s!"Diagnostics ({diagnostics.length}):" ::
    diagnostics.map fun diagnostic => "  " ++ diagnostic.message

/-- The lines of a step report. -/
def StepReport.tableLines (report : StepReport) : List String :=
  "Per file:" :: fileTable report.files ++
    "" :: "Results:" :: aggregateTable report.steps ++
    diagnosticLines report.diagnostics

/-- A step report as text. -/
def StepReport.table (report : StepReport) : String :=
  textOfLines report.tableLines

/-- The row of one cycle. -/
def CycleRow.tableLine (row : CycleRow) : String :=
  tripleRow 5 (toString row.cycle) (meanText row.averageWait) (toString row.duration)

/-- The lines of a cycle report. -/
def CycleReport.tableLines (report : CycleReport) : List String :=
  s!"participants: {report.participants}" ::
    tripleRow 5 "cycle" "avg wait" "duration" :: report.cycles.map CycleRow.tableLine

/-- A cycle report as text. -/
def CycleReport.table (report : CycleReport) : String :=
  textOfLines report.tableLines

end RunTimings
