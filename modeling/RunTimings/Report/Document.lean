import RunTimings.Json.Printer
import RunTimings.Report.Cycles
import RunTimings.Report.Steps

/-!
# Reports as JSON documents

A report becomes one object, its fields in a fixed order. A diagnostic is one flat object: the field
`kind` says which further fields it has. Missing means are null.
-/

namespace RunTimings

/-- The fields of a problem, its kind first. -/
def Problem.fields (step : Nat) : Problem → List (String × Json)
  | .endWithoutBegin => [("kind", .str "end_without_begin"), ("step", .int step)]
  | .beginWhileOpen replaced =>
    [("kind", .str "begin_while_open"), ("step", .int step), ("replaced", .int replaced)]
  | .negativeDuration duration =>
    [("kind", .str "negative_duration"), ("step", .int step), ("duration", .int duration)]

/-- A diagnostic as one object. -/
def Diagnostic.toJson (d : Diagnostic) : Json :=
  .obj (("source", .str d.source) :: ("line", .int d.line) :: d.problem.fields d.step)

/-- What a file tells of the steps, as an object. -/
def StepSummary.toJson (s : StepSummary) : Json :=
  .obj
    [("source", .str s.source),
     ("means", .ofList (.ofOption .real) s.means.toList),
     ("sample_counts", .ofList (fun (n : Nat) => .int n) s.sampleCounts.toList),
     ("diagnostics", .ofList Diagnostic.toJson s.diagnostics)]

/-- One step over all files, as an object. -/
def StepAggregate.toJson (a : StepAggregate) : Json :=
  .obj
    [("step", .int a.step), ("mean", .ofOption .real a.mean), ("contributors", .int a.contributors)]

/-- A step report as an object. -/
def StepReport.toJson (r : StepReport) : Json :=
  .obj
    [("files", .ofList StepSummary.toJson r.files), ("steps", .ofList StepAggregate.toJson r.steps)]

/-- One cycle as an object. -/
def CycleRow.toJson (r : CycleRow) : Json :=
  .obj [("cycle", .int r.cycle), ("avg_wait", .real r.averageWait), ("duration", .int r.duration)]

/-- A cycle report as an object. -/
def CycleReport.toJson (r : CycleReport) : Json :=
  .obj [("participants", .int r.participants), ("cycles", .ofList CycleRow.toJson r.cycles)]

/-- A step report as a document. -/
def StepReport.document (r : StepReport) : String :=
  r.toJson.document

/-- A cycle report as a document. -/
def CycleReport.document (r : CycleReport) : String :=
  r.toJson.document

end RunTimings
