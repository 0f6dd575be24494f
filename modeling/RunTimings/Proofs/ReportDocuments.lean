import RunTimings.Proofs.JsonReader
import RunTimings.Proofs.PrintedJson
import RunTimings.Report.Document

/-! # Documents of reports — a report is recovered from its document

    The document of a report is JSON, and the JSON says all of the report.  What it
    has to say is told field by field (`ShownAs`), and whoever reads the fields has
    the report again, whatever order they stand in.

    * `Json.field?` and what follows — the parts of a value.
    * `Problem.ShownAs`, …, `Report.ShownAs` — how a report is shown, list by list and
      field by field.
    * `Report.ofJson?` — reads a report; it is the one that is shown
      (`Report.ShownAs.ofJson?`).
    * **`report_of_document`** — the document is well formed, and a different report has
      a different one. -/

namespace RunTimings

/-! ## Parts of values -/

namespace Json

/-- The names in an object. -/
def keys : Json → List String
  | .obj fields => fields.map (·.1)
  | _ => []

/-- The value of a name in an object. -/
def field? (name : String) : Json → Option Json
  | .obj fields => fields.lookup name
  | _ => none

/-- The items of an array, each of them read. -/
def list? {α : Type} (readItem : Json → Option α) : Json → Option (List α)
  | .arr items => items.mapM readItem
  | _ => none

/-- A value that may be missing. -/
def nullable? {α : Type} (readValue : Json → Option α) : Json → Option (Option α)
  | .null => some none
  | value => (readValue value).map some

def text? : Json → Option String
  | .str text => some text
  | _ => none

def int? : Json → Option ℤ
  | .int n => some n
  | _ => none

def nat? : Json → Option ℕ
  | .int (.ofNat n) => some n
  | _ => none

def real? : Json → Option Float
  | .real x => some x
  | _ => none

/-- No object has a name twice, however deep. -/
def KeysDistinct (value : Json) : Prop :=
  value.Every (fun _ => True) List.Nodup

/-- An object without objects, arrays and missing values in it. -/
def Flat (value : Json) : Prop :=
  ∃ fields, value = .obj fields
    ∧ ∀ field ∈ fields, (∃ n, field.2 = .int n) ∨ ∃ text, field.2 = .str text

end Json

/-! ## How a report is shown -/

/-- A list is shown as an array of as many items, in the same order. -/
def ListShownAs {α : Type} (shown : α → Json → Prop) (items : List α) (value : Option Json) : Prop :=
  ∃ values, value = some (.arr values) ∧ List.Forall₂ shown items values

/-- A mean that is absent is null, and one that is present is a number. -/
inductive MeanShownAs : Option Float → Json → Prop
  | absent : MeanShownAs none .null
  | present (x : Float) : MeanShownAs (some x) (.real x)

/-- A count is a number. -/
def CountShownAs (n : ℕ) (value : Json) : Prop :=
  value = .int n

/-- The kind of a problem says which further names there are. -/
def Problem.ShownAs (value : Json) : Problem → Prop
  | .endWithoutBegin =>
    value.field? "kind" = some (.str "end_without_begin")
      ∧ value.keys = ["source", "line", "kind", "step"]
  | .beginWhileOpen replaced =>
    value.field? "kind" = some (.str "begin_while_open")
      ∧ value.keys = ["source", "line", "kind", "step", "replaced"]
      ∧ value.field? "replaced" = some (.int replaced)
  | .negativeDuration duration =>
    value.field? "kind" = some (.str "negative_duration")
      ∧ value.keys = ["source", "line", "kind", "step", "duration"]
      ∧ value.field? "duration" = some (.int duration)

/-- A diagnostic is one flat object. -/
structure Diagnostic.ShownAs (d : Diagnostic) (value : Json) : Prop where
  flat : value.Flat
  source : value.field? "source" = some (.str d.source)
  line : value.field? "line" = some (.int d.line)
  step : value.field? "step" = some (.int d.step)
  problem : d.problem.ShownAs value

structure StepSummary.ShownAs (s : StepSummary) (value : Json) : Prop where
  keys : value.keys = ["source", "means", "sample_counts", "diagnostics"]
  source : value.field? "source" = some (.str s.source)
  means : ListShownAs MeanShownAs s.means.toList (value.field? "means")
  sampleCounts : ListShownAs CountShownAs s.sampleCounts.toList
    (value.field? "sample_counts")
  diagnostics : ListShownAs Diagnostic.ShownAs s.diagnostics (value.field? "diagnostics")

structure StepAggregate.ShownAs (a : StepAggregate) (value : Json) : Prop where
  keys : value.keys = ["step", "mean", "contributors"]
  step : value.field? "step" = some (.int a.step)
  mean : ∃ v, value.field? "mean" = some v ∧ MeanShownAs a.mean v
  contributors : value.field? "contributors" = some (.int a.contributors)

structure StepReport.ShownAs (r : StepReport) (value : Json) : Prop where
  keys : value.keys = ["files", "steps"]
  files : ListShownAs StepSummary.ShownAs r.files (value.field? "files")
  steps : ListShownAs StepAggregate.ShownAs r.steps (value.field? "steps")

structure CycleRow.ShownAs (r : CycleRow) (value : Json) : Prop where
  keys : value.keys = ["cycle", "avg_wait", "duration"]
  cycle : value.field? "cycle" = some (.int r.cycle)
  averageWait : value.field? "avg_wait" = some (.real r.averageWait)
  duration : value.field? "duration" = some (.int r.duration)

structure CycleReport.ShownAs (r : CycleReport) (value : Json) : Prop where
  keys : value.keys = ["participants", "cycles"]
  participants : value.field? "participants" = some (.int r.participants)
  cycles : ListShownAs CycleRow.ShownAs r.cycles (value.field? "cycles")

theorem listShownAs_map {α : Type} {shown : α → Json → Prop} {toJson : α → Json}
    (h : ∀ a, shown a (toJson a)) (items : List α) :
    ListShownAs shown items (some (.ofList toJson items)) :=
  ⟨items.map toJson, rfl, List.forall₂_map_right_iff.mpr (List.forall₂_same.mpr fun a _ => h a)⟩

theorem meanShownAs_ofOption (mean : Option Float) : MeanShownAs mean (.ofOption .real mean) := by
  cases mean with
  | none => exact .absent
  | some x => exact .present x

theorem countShownAs_int (n : ℕ) : CountShownAs n (.int n) := rfl

theorem Diagnostic.shownAs_toJson (d : Diagnostic) : d.ShownAs d.toJson := by
  obtain ⟨source, line, step, problem⟩ := d
  cases problem with
  | endWithoutBegin =>
      refine ⟨⟨_, rfl, ?_⟩, rfl, rfl, rfl, rfl, rfl⟩
      simp [Problem.fields]
  | beginWhileOpen replaced =>
      refine ⟨⟨_, rfl, ?_⟩, rfl, rfl, rfl, rfl, rfl, rfl⟩
      simp [Problem.fields]
  | negativeDuration duration =>
      refine ⟨⟨_, rfl, ?_⟩, rfl, rfl, rfl, rfl, rfl, rfl⟩
      simp [Problem.fields]

theorem StepSummary.shownAs_toJson (s : StepSummary) : s.ShownAs s.toJson :=
  ⟨rfl, rfl, listShownAs_map meanShownAs_ofOption _, listShownAs_map countShownAs_int _,
    listShownAs_map Diagnostic.shownAs_toJson _⟩

theorem StepAggregate.shownAs_toJson (a : StepAggregate) : a.ShownAs a.toJson :=
  ⟨rfl, rfl, ⟨_, rfl, meanShownAs_ofOption _⟩, rfl⟩

theorem StepReport.shownAs_toJson (r : StepReport) : r.ShownAs r.toJson :=
  ⟨rfl, listShownAs_map StepSummary.shownAs_toJson _,
    listShownAs_map StepAggregate.shownAs_toJson _⟩

theorem CycleRow.shownAs_toJson (r : CycleRow) : r.ShownAs r.toJson :=
  ⟨rfl, rfl, rfl, rfl⟩

theorem CycleReport.shownAs_toJson (r : CycleReport) : r.ShownAs r.toJson :=
  ⟨rfl, rfl, listShownAs_map CycleRow.shownAs_toJson _⟩

/-! ## Reading a report -/

/-- The value of a name, read. -/
def Json.at? {α : Type} (value : Json) (name : String) (readValue : Json → Option α) : Option α :=
  (value.field? name).bind readValue

/-- A table with one entry for each step, if that is how many there are. -/
def PerStep.ofList? {α : Type} (items : List α) : Option (PerStep α) :=
  if h : items.length = stepCount then some ⟨items.toArray, h⟩ else none

/-- The problem that a kind and the names that go with it tell. -/
def Problem.ofJson? (value : Json) : Option Problem := do
  let kind ← value.at? "kind" Json.text?
  if kind = "end_without_begin" then some .endWithoutBegin
  else if kind = "begin_while_open" then (value.at? "replaced" Json.int?).map .beginWhileOpen
  else if kind = "negative_duration" then (value.at? "duration" Json.int?).map .negativeDuration
  else none

def Diagnostic.ofJson? (value : Json) : Option Diagnostic := do
  let source ← value.at? "source" Json.text?
  let line ← value.at? "line" Json.nat?
  let step ← value.at? "step" Json.nat?
  let problem ← Problem.ofJson? value
  return ⟨source, line, step, problem⟩

def StepSummary.ofJson? (value : Json) : Option StepSummary := do
  let source ← value.at? "source" Json.text?
  let means ← (value.at? "means" (Json.list? (Json.nullable? Json.real?))).bind PerStep.ofList?
  let counts ← (value.at? "sample_counts" (Json.list? Json.nat?)).bind PerStep.ofList?
  let diagnostics ← value.at? "diagnostics" (Json.list? Diagnostic.ofJson?)
  return ⟨source, means, counts, diagnostics⟩

def StepAggregate.ofJson? (value : Json) : Option StepAggregate := do
  let step ← value.at? "step" Json.nat?
  let mean ← value.at? "mean" (Json.nullable? Json.real?)
  let contributors ← value.at? "contributors" Json.nat?
  return ⟨step, mean, contributors⟩

def StepReport.ofJson? (value : Json) : Option StepReport := do
  let files ← value.at? "files" (Json.list? StepSummary.ofJson?)
  let steps ← value.at? "steps" (Json.list? StepAggregate.ofJson?)
  return ⟨files, steps⟩

def CycleRow.ofJson? (value : Json) : Option CycleRow := do
  let cycle ← value.at? "cycle" Json.nat?
  let averageWait ← value.at? "avg_wait" Json.real?
  let duration ← value.at? "duration" Json.int?
  return ⟨cycle, averageWait, duration⟩

def CycleReport.ofJson? (value : Json) : Option CycleReport := do
  let participants ← value.at? "participants" Json.nat?
  let cycles ← value.at? "cycles" (Json.list? CycleRow.ofJson?)
  return ⟨participants, cycles⟩

theorem Json.at?_of_field? {α : Type} {value v : Json} {name : String}
    {readValue : Json → Option α} (h : value.field? name = some v) :
    value.at? name readValue = readValue v := by
  rw [Json.at?, h]
  rfl

theorem ListShownAs.read {α : Type} {shown : α → Json → Prop} {readItem : Json → Option α}
    (hitem : ∀ a v, shown a v → readItem v = some a) {items : List α} {value : Json}
    {name : String} (h : ListShownAs shown items (value.field? name)) :
    value.at? name (Json.list? readItem) = some items := by
  obtain ⟨values, hvalues, hall⟩ := h
  rw [Json.at?_of_field? hvalues, Json.list?]
  clear hvalues
  induction hall with
  | nil => rfl
  | cons hhead _ ih =>
      rw [List.mapM_cons, hitem _ _ hhead, ih]
      rfl

theorem MeanShownAs.read {mean : Option Float} {value : Json} (h : MeanShownAs mean value) :
    value.nullable? Json.real? = some mean := by
  cases h <;> rfl

theorem CountShownAs.read {n : ℕ} {value : Json} (h : CountShownAs n value) :
    value.nat? = some n := by
  rw [h]
  rfl

theorem PerStep.ofList?_toList {α : Type} (table : PerStep α) :
    PerStep.ofList? table.toList = some table := by
  rw [PerStep.ofList?, dif_pos Vector.length_toList]
  rfl

/-- The kind and the names that go with it tell the problem. -/
theorem Problem.ShownAs.ofJson? {problem : Problem} {value : Json} (h : problem.ShownAs value) :
    Problem.ofJson? value = some problem := by
  cases problem with
  | endWithoutBegin =>
      rw [Problem.ofJson?, Json.at?_of_field? h.1]
      rfl
  | beginWhileOpen replaced =>
      obtain ⟨hkind, -, hreplaced⟩ := h
      rw [Problem.ofJson?, Json.at?_of_field? hkind, Json.at?_of_field? hreplaced]
      rfl
  | negativeDuration duration =>
      obtain ⟨hkind, -, hduration⟩ := h
      rw [Problem.ofJson?, Json.at?_of_field? hkind, Json.at?_of_field? hduration]
      rfl

theorem Diagnostic.ShownAs.ofJson? {d : Diagnostic} {value : Json} (h : d.ShownAs value) :
    Diagnostic.ofJson? value = some d := by
  rw [Diagnostic.ofJson?, Json.at?_of_field? h.source, Json.at?_of_field? h.line,
    Json.at?_of_field? h.step, h.problem.ofJson?]
  rfl

theorem StepSummary.ShownAs.ofJson? {s : StepSummary} {value : Json} (h : s.ShownAs value) :
    StepSummary.ofJson? value = some s := by
  rw [StepSummary.ofJson?, Json.at?_of_field? h.source,
    h.means.read fun _ _ h => h.read, h.sampleCounts.read fun _ _ h => h.read,
    h.diagnostics.read fun _ _ h => h.ofJson?]
  simp only [Option.bind_some, PerStep.ofList?_toList]
  rfl

theorem StepAggregate.ShownAs.ofJson? {a : StepAggregate} {value : Json} (h : a.ShownAs value) :
    StepAggregate.ofJson? value = some a := by
  obtain ⟨v, hmean, hshown⟩ := h.mean
  rw [StepAggregate.ofJson?, Json.at?_of_field? h.step, Json.at?_of_field? hmean, hshown.read,
    Json.at?_of_field? h.contributors]
  rfl

theorem StepReport.ShownAs.ofJson? {r : StepReport} {value : Json} (h : r.ShownAs value) :
    StepReport.ofJson? value = some r := by
  rw [StepReport.ofJson?, h.files.read fun _ _ h => h.ofJson?, h.steps.read fun _ _ h => h.ofJson?]
  rfl

theorem CycleRow.ShownAs.ofJson? {r : CycleRow} {value : Json} (h : r.ShownAs value) :
    CycleRow.ofJson? value = some r := by
  rw [CycleRow.ofJson?, Json.at?_of_field? h.cycle, Json.at?_of_field? h.averageWait,
    Json.at?_of_field? h.duration]
  rfl

theorem CycleReport.ShownAs.ofJson? {r : CycleReport} {value : Json} (h : r.ShownAs value) :
    CycleReport.ofJson? value = some r := by
  rw [CycleReport.ofJson?, Json.at?_of_field? h.participants,
    h.cycles.read fun _ _ h => h.ofJson?]
  rfl

/-! ## Reports -/

/-- A report of one kind or the other. -/
inductive Report
  | steps (report : StepReport)
  | cycles (report : CycleReport)

/-- The value of a report. -/
def Report.toJson : Report → Json
  | .steps report => report.toJson
  | .cycles report => report.toJson

/-- The document of a report. -/
def Report.document : Report → String
  | .steps report => report.document
  | .cycles report => report.document

/-- All means and averages are finite. -/
def Report.Finite : Report → Prop
  | .steps report =>
    (∀ file ∈ report.files, ∀ x, some x ∈ file.means.toList → Json.IsFinite x)
      ∧ ∀ step ∈ report.steps, ∀ x, step.mean = some x → Json.IsFinite x
  | .cycles report => ∀ row ∈ report.cycles, Json.IsFinite row.averageWait

/-- How a report is shown; the names tell the kind. -/
def Report.ShownAs (value : Json) : Report → Prop
  | .steps report => report.ShownAs value
  | .cycles report => report.ShownAs value

/-- Reads a report of either kind. -/
def Report.ofJson? (value : Json) : Option Report :=
  if value.keys = ["files", "steps"] then (StepReport.ofJson? value).map .steps
  else (CycleReport.ofJson? value).map .cycles

theorem Report.document_eq (report : Report) :
    report.document = Json.document report.toJson := by
  cases report <;> rfl

theorem Report.shownAs_toJson (report : Report) : report.ShownAs report.toJson := by
  cases report with
  | steps report => exact report.shownAs_toJson
  | cycles report => exact report.shownAs_toJson

/-- **READ AGAIN**: the report that a value shows. -/
theorem Report.ShownAs.ofJson? {report : Report} {value : Json} (h : report.ShownAs value) :
    Report.ofJson? value = some report := by
  cases report with
  | steps report =>
      rw [Report.ofJson?, if_pos (StepReport.ShownAs.keys h), StepReport.ShownAs.ofJson? h]
      rfl
  | cycles report =>
      have hkeys : value.keys ≠ ["files", "steps"] := by
        rw [CycleReport.ShownAs.keys h]
        decide
      rw [Report.ofJson?, if_neg hkeys, CycleReport.ShownAs.ofJson? h]
      rfl

/-! ### What is in the value of a report -/

theorem every_ofList {number : Float → Prop} {names : List String → Prop} {α : Type}
    {toJson : α → Json} {items : List α} (h : ∀ a ∈ items, (toJson a).Every number names) :
    (Json.ofList toJson items).Every number names := by
  refine .arr fun value hvalue => ?_
  obtain ⟨a, ha, rfl⟩ := List.mem_map.mp hvalue
  exact h a ha

theorem every_mean {number : Float → Prop} {names : List String → Prop} {mean : Option Float}
    (h : ∀ x, mean = some x → number x) : (Json.ofOption .real mean).Every number names := by
  cases mean with
  | none => exact .null
  | some x => exact .real (h x rfl)

/-- The fields of an object, one after the other. -/
theorem every_cons {number : Float → Prop} {names : List String → Prop} {name : String}
    {value : Json} {fields : List (String × Json)} (hvalue : value.Every number names)
    (h : ∀ field ∈ fields, field.2.Every number names) :
    ∀ field ∈ (name, value) :: fields, field.2.Every number names :=
  List.forall_mem_cons.mpr ⟨hvalue, h⟩

theorem every_nil {number : Float → Prop} {names : List String → Prop} :
    ∀ field ∈ ([] : List (String × Json)), field.2.Every number names :=
  fun _ h => absurd h List.not_mem_nil

/-- An object is told by the list of its names. -/
theorem every_obj {number : Float → Prop} {fields : List (String × Json)} {names : List String}
    (hkeys : (Json.obj fields).keys = names) (hnodup : names.Nodup)
    (hfields : ∀ field ∈ fields, field.2.Every number List.Nodup) :
    (Json.obj fields).Every number List.Nodup := by
  refine .obj ?_ hfields
  show (Json.obj fields).keys.Nodup
  rwa [hkeys]

theorem Diagnostic.every_toJson (number : Float → Prop) (d : Diagnostic) :
    d.toJson.Every number List.Nodup := by
  have hshown := d.shownAs_toJson.problem
  obtain ⟨source, line, step, problem⟩ := d
  cases problem with
  | endWithoutBegin =>
      exact every_obj hshown.2 (by decide) <| every_cons (.str _) <| every_cons (.int _)
        <| every_cons (.str _) <| every_cons (.int _) every_nil
  | beginWhileOpen replaced =>
      exact every_obj hshown.2.1 (by decide) <| every_cons (.str _) <| every_cons (.int _)
        <| every_cons (.str _) <| every_cons (.int _) <| every_cons (.int _) every_nil
  | negativeDuration duration =>
      exact every_obj hshown.2.1 (by decide) <| every_cons (.str _) <| every_cons (.int _)
        <| every_cons (.str _) <| every_cons (.int _) <| every_cons (.int _) every_nil

theorem StepSummary.every_toJson {number : Float → Prop} {s : StepSummary}
    (h : ∀ x, some x ∈ s.means.toList → number x) : s.toJson.Every number List.Nodup :=
  every_obj s.shownAs_toJson.keys (by decide) <| every_cons (.str _)
    <| every_cons (every_ofList fun mean hmean =>
        every_mean fun x hx => h x (by rw [← hx]; exact hmean))
    <| every_cons (every_ofList fun _ _ => .int _)
    <| every_cons (every_ofList fun d _ => d.every_toJson number) every_nil

theorem StepAggregate.every_toJson {number : Float → Prop} {a : StepAggregate}
    (h : ∀ x, a.mean = some x → number x) : a.toJson.Every number List.Nodup :=
  every_obj a.shownAs_toJson.keys (by decide) <| every_cons (.int _) <| every_cons (every_mean h)
    <| every_cons (.int _) every_nil

theorem CycleRow.every_toJson {number : Float → Prop} {r : CycleRow} (h : number r.averageWait) :
    r.toJson.Every number List.Nodup :=
  every_obj r.shownAs_toJson.keys (by decide) <| every_cons (.int _) <| every_cons (.real h)
    <| every_cons (.int _) every_nil

/-- **IN A REPORT** that is finite all numbers are, and no object has a name twice. -/
theorem Report.Finite.every_toJson {report : Report} (h : report.Finite) :
    report.toJson.Every Json.IsFinite List.Nodup := by
  cases report with
  | steps report =>
      obtain ⟨hfiles, hsteps⟩ := h
      exact every_obj report.shownAs_toJson.keys (by decide)
        <| every_cons (every_ofList fun file hfile => StepSummary.every_toJson (hfiles file hfile))
        <| every_cons (every_ofList fun step hstep => StepAggregate.every_toJson (hsteps step hstep))
          every_nil
  | cycles report =>
      exact every_obj report.shownAs_toJson.keys (by decide) <| every_cons (.int _)
        <| every_cons (every_ofList fun row hrow => CycleRow.every_toJson (h row hrow)) every_nil

/-- The text of an object with a name in it ends with its bracket. -/
theorem getLast?_print_obj (depth : ℕ) (field : String × Json) (fields : List (String × Json)) :
    (Json.print depth (.obj (field :: fields))).getLast? = some '\x7d' := by
  obtain ⟨name, value⟩ := field
  rw [Json.print]
  simp only [← List.cons_append, ← List.append_assoc, List.getLast?_append, List.getLast?_singleton,
    Option.some_or]

/-- The text of a report, without the line feed. -/
def Report.text (report : Report) : List Char :=
  Json.print 0 report.toJson

theorem Report.toList_document (report : Report) :
    report.document.toList = report.text ++ ['\n'] := by
  rw [report.document_eq, Json.document, String.toList_ofList, Report.text]

theorem Report.Finite.spells {report : Report} (h : report.Finite) :
    Json.Spells report.toJson report.text :=
  Json.spells_print h.every_toJson 0

/-- **DECODED**: a report is read from its document. -/
theorem Report.Finite.read {report : Report} (h : report.Finite) :
    (Json.read report.document.toList).bind Report.ofJson? = some report := by
  rw [report.toList_document, Json.read_of_spells (h.spells.after rfl), Option.bind_some,
    report.shownAs_toJson.ofJson?]

/-- **THE DOCUMENT** of a report is one JSON text and a line feed.  The JSON says one
    value, and this shows the report and no other: no object in it has a name twice, lists
    stand in order, a mean is null exactly if it is absent, and a diagnostic is a flat
    object with its kind.  So the report is read from its document again, and another one
    has another document. -/
theorem report_of_document (report : Report) (hfinite : report.Finite) :
    (∃ text, report.document.toList = text ++ ['\n'] ∧ text.getLast? = some '\x7d'
        ∧ Json.Spells report.toJson text ∧ ∀ value, Json.Spells value text → value = report.toJson)
      ∧ report.toJson.KeysDistinct
      ∧ (report.ShownAs report.toJson ∧ ∀ other : Report, other.ShownAs report.toJson → other = report)
      ∧ (Json.read report.document.toList).bind Report.ofJson? = some report
      ∧ ∀ other : Report, other.Finite → other.document = report.document → other = report := by
  refine ⟨⟨report.text, report.toList_document, ?_, hfinite.spells, ?_⟩, ?_,
    ⟨report.shownAs_toJson, ?_⟩, hfinite.read, ?_⟩
  · cases report <;> exact getLast?_print_obj 0 _ _
  · exact fun value hvalue => hvalue.unique hfinite.spells
  · exact hfinite.every_toJson.mono (fun _ _ => trivial) fun _ h => h
  · intro other hother
    have hread := hother.ofJson?
    rw [report.shownAs_toJson.ofJson?] at hread
    exact (Option.some.inj hread).symm
  · intro other hother hsame
    have hread := hother.read
    rw [hsame, hfinite.read] at hread
    exact (Option.some.inj hread).symm

/-- A report of a log with an odd name, in which all that can be odd is. -/
def escapedReport : Report :=
  .steps
    { files :=
        [{ source := "\x22\\\n\x01é"
           means := .ofFn fun step => if step.val = 0 then some 0.1 else none
           sampleCounts := .ofFn fun step => step.val
           diagnostics :=
             [⟨"\x22\\\n\x01é", 4, 0, .endWithoutBegin⟩,
              ⟨"\x22\\\n\x01é", 6, 1, .beginWhileOpen (-7)⟩,
              ⟨"\x22\\\n\x01é", 9, 2, .negativeDuration (-30)⟩] }]
      steps := [⟨0, some 0.1, 1⟩, ⟨1, none, 0⟩] }

theorem isFinite_tenth : Json.IsFinite 0.1 :=
  ⟨false, 7205759403792794, -56, by decide +kernel⟩

theorem finite_escapedReport : escapedReport.Finite := by
  refine ⟨fun file hfile x hx => ?_, fun step hstep x hx => ?_⟩
  · obtain rfl := List.mem_singleton.mp hfile
    obtain ⟨place, -, hplace⟩ := List.mem_map.mp hx
    split_ifs at hplace
    · rw [← Option.some.inj hplace]
      exact isFinite_tenth
  · rcases List.mem_cons.mp hstep with rfl | hsecond
    · rw [← Option.some.inj hx]
      exact isFinite_tenth
    · obtain rfl := List.mem_singleton.mp hsecond
      cases hx

/-- The report is read from its document. -/
theorem read_escapedReport :
    escapedReport.Finite
      ∧ (Json.read escapedReport.document.toList).bind Report.ofJson? = some escapedReport :=
  ⟨finite_escapedReport, (report_of_document escapedReport finite_escapedReport).2.2.2.1⟩

end RunTimings
