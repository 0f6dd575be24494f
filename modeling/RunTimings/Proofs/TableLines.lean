import RunTimings.Report.Table

/-! # Table lines — the text of a report, line by line

    A report is written as one text, and read line by line: the two are the same as
    long as no line holds a line feed.  Numbers and titles hold none, so it is up to
    the names of the files.

    * `pieces_textOfLines` — lines that are put together are cut into the same lines.
    * `tableLines_eq` — the lines of a report are its tables, and behind them its
      problems.
    * `oneLine_tables` and `oneLine_problemSection` — no line of either is broken if
      no name and no message is; `oneLine_message` — nor is a message, if its name is
      not. -/

namespace RunTimings

open RunTimings.Text

/-! ## Lines -/

/-- What lines are put together to is cut into the same lines. -/
theorem pieces_textOfLines {lines : List String} (h : ∀ line ∈ lines, '\n' ∉ line.toList)
    (more : List Char) :
    pieces '\n' ((textOfLines lines).toList ++ more)
      = lines.map String.toList ++ pieces '\n' more := by
  induction lines with
  | nil => rfl
  | cons line rest ih =>
      rw [List.forall_mem_cons] at h
      have hfirst : (textOfLines (line :: rest)).toList ++ more
          = line.toList ++ '\n' :: ((textOfLines rest).toList ++ more) := by
        simp [textOfLines]
      rw [hfirst, pieces_append_separator h.1, ih h.2]
      rfl

theorem textOfLines_append (lines more : List String) :
    textOfLines (lines ++ more) = textOfLines lines ++ textOfLines more := by
  simp only [textOfLines, List.map_append, String.join_append]

/-! ## The two parts of a report -/

/-- The title of so many problems. -/
def diagnosticsTitle (count : Nat) : String :=
  s!"Diagnostics ({count}):"

/-- What stands at the end of a table of some problems; nothing if there are none. -/
def problemSection (messages : List String) : List String :=
  if messages = [] then []
  else "" :: diagnosticsTitle messages.length :: messages.map ("  " ++ ·)

/-- The tables of a report, without its problems. -/
def StepReport.tables (report : StepReport) : List String :=
  "Per file:" :: fileTable report.files ++ "" :: "Results:" :: aggregateTable report.steps

/-- Behind the tables stand the problems. -/
theorem tableLines_eq (report : StepReport) :
    report.tableLines
      = report.tables ++ problemSection (report.diagnostics.map Diagnostic.message) := by
  have hlines : diagnosticLines report.diagnostics
      = problemSection (report.diagnostics.map Diagnostic.message) := by
    simp only [diagnosticLines, problemSection, List.map_eq_nil_iff, List.length_map, List.map_map]
    rfl
  rw [← hlines]
  rfl

/-! ## Nothing breaks a line -/

/-- The text is on one line. -/
abbrev OneLine (text : String) : Prop :=
  '\n' ∉ text.toList

theorem OneLine.append {text more : String} (h : OneLine text) (hmore : OneLine more) :
    OneLine (text ++ more) := by
  simp only [OneLine, String.toList_append, List.mem_append, not_or]
  exact ⟨h, hmore⟩

theorem OneLine.join {texts : List String} (h : ∀ text ∈ texts, OneLine text) :
    OneLine (String.join texts) := by
  simp only [OneLine, String.toList_join, List.mem_flatMap, not_exists, not_and]
  exact h

theorem oneLine_spaces (n : Nat) : OneLine (spaces n) := by
  simp only [OneLine, spaces, String.toList_ofList]
  intro hmem
  exact absurd (List.eq_of_mem_replicate hmem) (by decide)

theorem oneLine_alignRight (width : Nat) {text : String} (h : OneLine text) :
    OneLine (alignRight width text) :=
  (oneLine_spaces _).append h

theorem oneLine_toString (n : Nat) : OneLine (toString n) := by
  intro hmem
  exact absurd (Nat.isDigit_of_mem_toDigits (by decide) (by decide)
    (Nat.toList_repr ▸ hmem)) (by decide)

theorem oneLine_toString_int (n : Int) : OneLine (toString n) := by
  cases n with
  | ofNat n => exact oneLine_toString n
  | negSucc n => exact .append (by decide : OneLine "-") (oneLine_toString (n + 1))

theorem oneLine_meanText (x : Float) : OneLine (meanText x) := by
  have hdigits : ∀ n, '\n' ∉ Numeral.ofNat n :=
    fun n hmem => absurd (Numeral.isDigit_of_mem_ofNat hmem) (by decide)
  simp only [OneLine, meanText, placesText, String.toList_ofList]
  cases Binary64.ofFloat x with
  | finite negative mantissa exponent =>
      have hsign : '\n' ∉ signText negative := by cases negative <;> decide
      simp [fixedText, hdigits, hsign]
  | infinite negative => cases negative <;> decide
  | nan => decide

theorem oneLine_elim_meanText {word : String} (h : OneLine word) (mean : Option Float) :
    OneLine (mean.elim word meanText) := by
  cases mean with
  | none => exact h
  | some x => exact oneLine_meanText x

theorem oneLine_fileRow {width : Nat} {name : String} {cells : List String} (h : OneLine name)
    (hcells : ∀ cell ∈ cells, OneLine cell) : OneLine (fileRow width name cells) := by
  refine (h.append (oneLine_spaces _)).append (OneLine.join ?_)
  intro text hmem
  obtain ⟨cell, hcell, rfl⟩ := List.mem_map.mp hmem
  exact .append (by decide : OneLine " | ") (oneLine_alignRight 10 (hcells cell hcell))

theorem oneLine_tripleRow {width : Nat} {first second third : String} (hfirst : OneLine first)
    (hsecond : OneLine second) (hthird : OneLine third) :
    OneLine (tripleRow width first second third) := by
  have hbar : OneLine " | " := by decide
  exact (((oneLine_alignRight width hfirst).append hbar).append
    (oneLine_alignRight 12 hsecond)).append hbar |>.append (oneLine_alignRight 12 hthird)

theorem meanCell_eq (mean : Option Float) : meanCell mean = mean.elim "-" meanText := by
  cases mean with
  | none => rfl
  | some x => rfl

/-- No line of the tables is broken if no name is. -/
theorem oneLine_tables {report : StepReport} (h : ∀ file ∈ report.files, OneLine file.source) :
    ∀ line ∈ report.tables, OneLine line := by
  intro line hmem
  simp only [StepReport.tables, fileTable, aggregateTable, List.cons_append, List.mem_cons,
    List.mem_append, List.mem_map] at hmem
  rcases hmem with rfl | rfl | ⟨file, hfile, rfl⟩ | rfl | rfl | rfl | ⟨step, -, rfl⟩
  · decide
  · exact oneLine_fileRow (by decide) (by decide)
  · refine oneLine_fileRow (h file hfile) ?_
    intro cell hcell
    obtain ⟨mean, -, rfl⟩ := List.mem_map.mp hcell
    rw [meanCell_eq]
    exact oneLine_elim_meanText (by decide) mean
  · decide
  · decide
  · exact oneLine_tripleRow (by decide) (by decide) (by decide)
  · exact oneLine_tripleRow (oneLine_toString _) (oneLine_elim_meanText (by decide) _)
      (oneLine_toString _)

/-- A message is on one line if the name of its file is. -/
theorem oneLine_message {diagnostic : Diagnostic} (h : OneLine diagnostic.source) :
    OneLine diagnostic.message := by
  have hproblem : OneLine (diagnostic.problem.message diagnostic.step) := by
    cases diagnostic.problem with
    | endWithoutBegin =>
        exact ((by decide : OneLine "end of step ").append (oneLine_toString _)).append
          (by decide : OneLine " without a matching begin")
    | beginWhileOpen replaced =>
        exact ((((by decide : OneLine "begin of step ").append (oneLine_toString _)).append
          (by decide : OneLine " while still open since ")).append
            (oneLine_toString_int _)).append (by decide : OneLine "; using the later begin")
    | negativeDuration duration =>
        exact (((by decide : OneLine "step ").append (oneLine_toString _)).append
          (by decide : OneLine " has negative duration ")).append (oneLine_toString_int _)
  have hcolon : OneLine ":" := by decide
  have hspace : OneLine ": " := by decide
  exact (((h.append hcolon).append (oneLine_toString _)).append hspace).append hproblem

/-- No line behind the tables is broken if no message is. -/
theorem oneLine_problemSection {messages : List String}
    (h : ∀ message ∈ messages, OneLine message) :
    ∀ line ∈ problemSection messages, OneLine line := by
  intro line hmem
  rw [problemSection] at hmem
  split at hmem
  · cases hmem
  · simp only [List.mem_cons, List.mem_map] at hmem
    rcases hmem with rfl | rfl | ⟨message, hmessage, rfl⟩
    · decide
    · exact ((by decide : OneLine "Diagnostics (").append (oneLine_toString _)).append
        (by decide : OneLine "):")
    · exact .append (by decide : OneLine "  ") (h message hmessage)

end RunTimings
