import Mathlib.Data.List.FinRange
import RunTimings.Proofs.ComparedRuns
import RunTimings.Proofs.StepReports
import RunTimings.Proofs.TableLines

/-! # Step notes — one account of the problems in three places

    A problem is noted while the file is analysed, stands in the report beside the
    file, and is listed at the end of the table.  Nothing in the code ties the
    three together, so it has to be shown that they tell the same.

    * `notes_each` — of computations that come out well all notes are kept, one
      computation after the other.
    * `FileView.NotesOn` is what is noted of one file: its problems, then the
      steps that it leaves open, then its means; `StepsOf.notesOn` is the step
      from a file to its notes, and `warnings_of_files` the run over all files.
    * `title_not_mem_tables` — no other line of the table is a title of problems.
    * `pieces_reportTable` — the text of the report is read as these lines.
    * `step_problems_told_alike` — notes, report and table agree. -/

namespace RunTimings

open RunTimings.Text

/-! ## Notes of chained computations -/

section

variable {α β : Type}

/-- What comes out well goes on, and keeps its notes. -/
theorem Journaled.notes_andThen {first : Journaled α} {next : α → Journaled β} {a : α}
    (h : first.outcome = .ok a) :
    (first.andThen next).notes = first.notes ++ (next a).notes := by
  obtain ⟨notes, outcome⟩ := first
  obtain rfl : outcome = .ok a := h
  rfl

/-- The notes of a row of computations are those of its items in order. -/
theorem Journaled.notes_each {f : α → Journaled β} {items : List α} {results : List β}
    (h : (Journaled.each f items).outcome = .ok results) :
    (Journaled.each f items).notes = items.flatMap fun item => (f item).notes := by
  induction items generalizing results with
  | nil => rfl
  | cons item rest ih =>
      obtain ⟨b, hb, hothers⟩ := Journaled.andThen_eq_ok_iff.mp h
      obtain ⟨others, hrest, -⟩ := Journaled.andThen_eq_ok_iff.mp hothers
      show ((f item).andThen fun b =>
        (Journaled.each f rest).andThen fun bs => .done (b :: bs)).notes = _
      rw [Journaled.notes_andThen hb, Journaled.notes_andThen hrest, ih hrest]
      exact congrArg _ (List.append_nil _)

end

/-- The texts of the warnings among some notes. -/
def warnings (notes : List Note) : List String :=
  (notes.filter (·.level = .warn)).map (·.text)

theorem warnings_append (notes more : List Note) :
    warnings (notes ++ more) = warnings notes ++ warnings more := by
  simp only [warnings, List.filter_append, List.map_append]

/-- Notes of one level are all warnings, or none of them is. -/
theorem warnings_of_level (level : Level) (texts : List String) :
    warnings (texts.map (⟨level, ·⟩)) = if level = .warn then texts else [] := by
  simp only [warnings, List.filter_map]
  by_cases h : level = .warn
  · simp [h, Function.comp_def]
  · simp [h, Function.comp_def]

/-! ## The steps left open -/

/-- Some steps are those that a log leaves open, in order: the last marker of the
    step is a begin, and with the step stands the time of it. -/
structure LeftOpen (markers : List Marker) (opened : List (StepIndex × Int)) : Prop where
  ascending : (opened.map Prod.fst).Pairwise (· < ·)
  mem_iff : ∀ step start, (step, start) ∈ opened
    ↔ (markers.filter (Marker.concerns step)).getLast? = some (.beginStep step start)

/-- What a tracker takes for never ended is what its events leave open. -/
theorem leftOpen_neverEnded (source : String) (events : List (Nat × Marker)) :
    LeftOpen (events.map Prod.snd) (StepTracker.after source events).neverEnded where
  ascending := by
    simp only [StepTracker.neverEnded]
    rw [List.pairwise_map, List.pairwise_filterMap]
    refine (List.pairwise_lt_finRange stepCount).imp ?_
    intro step other hlt opened hopened opened' hopened'
    obtain ⟨start, -, rfl⟩ := Option.map_eq_some_iff.mp hopened
    obtain ⟨start', -, rfl⟩ := Option.map_eq_some_iff.mp hopened'
    exact hlt
  mem_iff := by
    intro step start
    show _ ↔ nearest step events = _
    rw [← openSince_eq_some_iff, ← (paired_after source events).opened_eq]
    simp only [StepTracker.neverEnded]
    rw [List.mem_filterMap]
    constructor
    · rintro ⟨_, -, hopened⟩
      obtain ⟨_, hstart, heq⟩ := Option.map_eq_some_iff.mp hopened
      cases heq
      exact hstart
    · intro hstart
      exact ⟨step, List.mem_finRange step, by rw [hstart]; rfl⟩

-- in the order of the steps, not in that of the begins
example : (StepTracker.after "b" [(1, .beginStep ⟨2, by decide⟩ 9),
    (2, .beginStep ⟨0, by decide⟩ 4)]).neverEnded = [(⟨0, by decide⟩, 4), (⟨2, by decide⟩, 9)] := by
  decide +kernel

/-! ## The notes on one file -/

/-- **THE NOTES ON A FILE**: its problems, then the steps that its markers leave
    open, then its means. -/
def FileView.NotesOn (files : FileView) (path : String) (summary : StepSummary)
    (notes : List Note) : Prop :=
  ∃ opened, LeftOpen (files.markers path) opened
    ∧ notes = (summary.diagnostics.map Diagnostic.message).map (⟨.warn, ·⟩)
      ++ (opened.map fun (step, start) => path ++ ": step " ++ toString (step.val + 1) ++
          " begun at " ++ toString start ++ " never ended").map (⟨.debug, ·⟩)
      ++ [⟨.info, path ++ ": step means " ++ noteList (summary.means.toList.map noteOption)⟩]

/-- The warnings on a file are its problems. -/
theorem FileView.NotesOn.warnings_eq {files : FileView} {path : String} {summary : StepSummary}
    {notes : List Note} (h : files.NotesOn path summary notes) :
    warnings notes = summary.diagnostics.map Diagnostic.message := by
  obtain ⟨opened, -, rfl⟩ := h
  rw [warnings_append, warnings_append, warnings_of_level, warnings_of_level, if_pos rfl,
    if_neg nofun, List.append_nil]
  exact List.append_nil _

theorem neverEndedNote_eq (path : String) :
    neverEndedNote path = fun (step, start) => path ++ ": step " ++ toString (step.val + 1) ++
      " begun at " ++ toString start ++ " never ended" := by
  funext ⟨step, start⟩
  rfl

/-- A file whose steps are told has them noted. -/
theorem FileView.StepsOf.notesOn {files : FileView} {path : String} {summary : StepSummary}
    (h : files.StepsOf path summary) :
    files.NotesOn path summary (analyseStepLog files path).notes := by
  obtain ⟨log, hload, hsummary⟩ := h
  obtain ⟨hreadable, rfl⟩ := (summariseSteps_eq_ok_iff path log summary).mp hsummary
  have hmarkers : files.markers path = log.events.map Prod.snd := by
    rw [hreadable.map_snd_events]
    simp only [FileView.markers]
    rw [hload]
  refine ⟨(StepTracker.after path log.events).neverEnded, ?_, ?_⟩
  · rw [hmarkers]
    exact leftOpen_neverEnded path log.events
  · simp only [analyseStepLog]
    rw [Journaled.bind_eq_andThen,
      Journaled.notes_andThen ((openLog_eq_ok_iff files path log).mpr hload),
      trackSteps_of_readable hreadable, neverEndedNote_eq]
    -- opening and checking take no notes, the three steps between them do
    show [] ++ (_ ++ ([] ++ (_ ++ (_ ++ [])))) = _
    rw [List.nil_append, List.nil_append, List.append_nil, List.append_assoc]
    rfl

/-! ## The notes on a run -/

/-- The notes on a run are those on its files in order, and behind them those on
    the steps without data. -/
theorem notes_analyseSteps {files : FileView} {dataset : StepDataset} {report : StepReport}
    (h : (analyseSteps files dataset).outcome = .ok report) :
    (analyseSteps files dataset).notes
      = (dataset.paths.flatMap fun path => (analyseStepLog files path).notes)
        ++ (missingSteps report.steps).map (⟨.info, ·⟩) := by
  obtain ⟨summaries, hsummaries, hreport⟩ := Journaled.andThen_eq_ok_iff.mp h
  obtain rfl : StepReport.ofFiles summaries = report := Except.ok.inj hreport
  simp only [analyseSteps]
  rw [Journaled.bind_eq_andThen, Journaled.notes_andThen hsummaries,
    Journaled.notes_each hsummaries]
  exact congrArg _ (List.append_nil _)

/-- The warnings on files are their problems, file by file. -/
theorem warnings_of_files {files : FileView} {notesOn : String → List Note} {paths : List String}
    {summaries : List StepSummary}
    (h : List.Forall₂ (fun path summary => files.NotesOn path summary (notesOn path)) paths
      summaries) :
    warnings (paths.flatMap notesOn)
      = (summaries.flatMap (·.diagnostics)).map Diagnostic.message := by
  induction h with
  | nil => rfl
  | cons hnotes _ ih =>
      rw [List.flatMap_cons, List.flatMap_cons, warnings_append, hnotes.warnings_eq, ih,
        List.map_append]

/-! ## The end of the table -/

/-- A bar stands in every row of a table. -/
theorem bar_mem_tripleRow (width : Nat) (first second third : String) :
    '|' ∈ (tripleRow width first second third).toList := by
  simp [tripleRow]

theorem bar_mem_fileRow (width : Nat) (name : String) {cells : List String} (h : cells ≠ []) :
    '|' ∈ (fileRow width name cells).toList := by
  obtain ⟨cell, rest, rfl⟩ := List.exists_cons_of_ne_nil h
  simp [fileRow]

/-- And none in a title. -/
theorem bar_not_mem_diagnosticsTitle (count : Nat) : '|' ∉ (diagnosticsTitle count).toList := by
  have hcount : '|' ∉ (toString count).toList := by
    intro hmem
    exact absurd (Nat.isDigit_of_mem_toDigits (by decide) (by decide)
      (Nat.toList_repr ▸ hmem)) (by decide)
  simp only [diagnosticsTitle, String.toList_append, List.mem_append, not_or]
  exact ⟨⟨by decide, hcount⟩, by decide⟩

/-- The lines of the tables are rows, and three others. -/
theorem mem_tables {report : StepReport} {line : String} (h : line ∈ report.tables) :
    '|' ∈ line.toList ∨ line ∈ ["Per file:", "", "Results:"] := by
  simp only [StepReport.tables, fileTable, aggregateTable, List.cons_append, List.mem_cons,
    List.mem_append, List.mem_map] at h
  have hmeans : ∀ file : StepSummary, file.means.toList.map meanCell ≠ [] := by
    intro file hnil
    have hlength := congrArg List.length hnil
    rw [List.length_map, Vector.length_toList] at hlength
    exact absurd hlength (by decide)
  rcases h with rfl | rfl | ⟨file, -, rfl⟩ | rfl | rfl | rfl | ⟨row, -, rfl⟩
  · exact .inr (by decide)
  · exact .inl (bar_mem_fileRow _ _ (by decide))
  · exact .inl (bar_mem_fileRow _ _ (hmeans file))
  · exact .inr (by decide)
  · exact .inr (by decide)
  · exact .inl (bar_mem_tripleRow _ _ _ _)
  · exact .inl (bar_mem_tripleRow _ _ _ _)

/-- No line of the tables is a title of problems. -/
theorem title_not_mem_tables (report : StepReport) (count : Nat) :
    diagnosticsTitle count ∉ report.tables := by
  intro hmem
  rcases mem_tables hmem with hbar | hother
  · exact bar_not_mem_diagnosticsTitle count hbar
  · have hhead : (diagnosticsTitle count).toList.head? = some 'D' := by
      simp only [diagnosticsTitle, String.toList_append, List.append_assoc]
      rfl
    have hnone : ∀ other ∈ ["Per file:", "", "Results:"], other.toList.head? ≠ some 'D' := by
      decide
    exact hnone _ hother hhead

/-- Behind the tables a title of problems stands exactly if there are some. -/
theorem exists_title_mem_iff (report : StepReport) (messages : List String) :
    (∃ count, diagnosticsTitle count ∈ report.tables ++ problemSection messages)
      ↔ messages ≠ [] := by
  simp only [problemSection]
  constructor
  · rintro ⟨count, hmem⟩ hnone
    rw [if_pos hnone, List.append_nil] at hmem
    exact title_not_mem_tables report count hmem
  · intro hsome
    refine ⟨messages.length, List.mem_append_right _ ?_⟩
    rw [if_neg hsome]
    exact List.mem_cons_of_mem _ List.mem_cons_self

/-! ## The names in a report -/

/-- What is told of a file bears its name. -/
theorem FileView.StepsOf.sources {files : FileView} {path : String} {summary : StepSummary}
    (h : files.StepsOf path summary) :
    summary.source = path ∧ ∀ diagnostic ∈ summary.diagnostics, diagnostic.source = path := by
  obtain ⟨log, -, hsummary⟩ := h
  obtain ⟨-, rfl⟩ := (summariseSteps_eq_ok_iff path log summary).mp hsummary
  have hpaired := paired_after path log.events
  refine ⟨hpaired.source_eq, fun diagnostic hmem => ?_⟩
  have hreported : diagnostic ∈ diagnosticsOf path log.events := hpaired.diagnostics_eq ▸ hmem
  exact source_of_mem_diagnosticsOf hreported

/-- **CUT**: the text of a report on files whose names hold no line feed is cut into the
    lines of its tables, and of its problems behind them. -/
theorem pieces_reportTable {files : FileView} {paths : List String} {summaries : List StepSummary}
    (h : List.Forall₂ files.StepsOf paths summaries) (hnames : ∀ path ∈ paths, OneLine path) :
    pieces '\n' (StepReport.ofFiles summaries).table.toList
      = ((StepReport.ofFiles summaries).tables ++ problemSection
          ((StepReport.ofFiles summaries).diagnostics.map Diagnostic.message)).map String.toList
        ++ [[]] := by
  have hfiles : ∀ file ∈ summaries, OneLine file.source
      ∧ ∀ diagnostic ∈ file.diagnostics, OneLine diagnostic.message := by
    induction h with
    | nil => exact fun file hmem => absurd hmem List.not_mem_nil
    | @cons path file paths summaries hsteps _ ih =>
        rw [List.forall_mem_cons] at hnames ⊢
        obtain ⟨hsource, hreported⟩ := hsteps.sources
        refine ⟨⟨hsource ▸ hnames.1, fun diagnostic hmem => oneLine_message ?_⟩, ih hnames.2⟩
        exact hreported diagnostic hmem ▸ hnames.1
  have hmessages : ∀ message ∈ (StepReport.ofFiles summaries).diagnostics.map Diagnostic.message,
      OneLine message := by
    intro message hmem
    obtain ⟨diagnostic, hdiagnostic, rfl⟩ := List.mem_map.mp hmem
    obtain ⟨file, hfile, hmem⟩ := List.mem_flatMap.mp hdiagnostic
    exact (hfiles file hfile).2 diagnostic hmem
  have hlines : ∀ line ∈ (StepReport.ofFiles summaries).tableLines, OneLine line := by
    rw [tableLines_eq, List.forall_mem_append]
    exact ⟨oneLine_tables fun file hfile => (hfiles file hfile).1,
      oneLine_problemSection hmessages⟩
  have hcut := pieces_textOfLines hlines []
  rw [List.append_nil, pieces_nil, tableLines_eq] at hcut
  rw [StepReport.table, tableLines_eq, hcut]

/-! ## Three places -/

/-- **ONE ACCOUNT**: if there is a report, its notes are those on the files one
    after the other, and of each file there are first its problems, then the steps
    that it leaves open; the warnings among all of them are the problems of the
    report; and the same are listed behind the tables, under a title with their
    number, and without any there is no title.  Where no name holds a line feed, so
    it is read in the text of the report. -/
theorem step_problems_told_alike {files : FileView} {dataset : StepDataset} {report : StepReport}
    (h : (analyseSteps files dataset).outcome = .ok report) :
    (analyseSteps files dataset).notes
        = (dataset.paths.flatMap fun path => (analyseStepLog files path).notes)
          ++ (missingSteps report.steps).map (⟨.info, ·⟩)
      ∧ List.Forall₂ (fun path summary =>
          files.NotesOn path summary (analyseStepLog files path).notes)
        dataset.paths report.files
      ∧ warnings (analyseSteps files dataset).notes = report.diagnostics.map Diagnostic.message
      ∧ report.table = textOfLines
        (report.tables ++ problemSection (warnings (analyseSteps files dataset).notes))
      ∧ ((∃ count, diagnosticsTitle count
          ∈ report.tables ++ problemSection (warnings (analyseSteps files dataset).notes))
        ↔ report.diagnostics ≠ [])
      ∧ ((∀ path ∈ dataset.paths, '\n' ∉ path.toList) →
        pieces '\n' report.table.toList
            = (report.tables ++ problemSection
                (warnings (analyseSteps files dataset).notes)).map String.toList ++ [[]]
          ∧ ((∃ count : Nat, ("Diagnostics (" ++ toString count ++ "):").toList
              ∈ pieces '\n' report.table.toList)
            ↔ report.diagnostics ≠ [])) := by
  have hnotes := notes_analyseSteps h
  obtain ⟨summaries, hsummaries, rfl⟩ := (analyseSteps_eq_ok_iff files dataset report).mp h
  have hfiles : List.Forall₂ (fun path summary =>
      files.NotesOn path summary (analyseStepLog files path).notes)
      dataset.paths summaries :=
    hsummaries.imp fun _ _ hsummary => hsummary.notesOn
  have hwarnings : warnings (analyseSteps files dataset).notes
      = (StepReport.ofFiles summaries).diagnostics.map Diagnostic.message := by
    rw [hnotes, warnings_append, warnings_of_files hfiles, warnings_of_level, if_neg nofun]
    exact List.append_nil _
  have htitle : (∃ count, diagnosticsTitle count ∈ (StepReport.ofFiles summaries).tables
      ++ problemSection (warnings (analyseSteps files dataset).notes))
      ↔ (StepReport.ofFiles summaries).diagnostics ≠ [] := by
    rw [hwarnings, exists_title_mem_iff, ne_eq, List.map_eq_nil_iff]
  refine ⟨hnotes, hfiles, hwarnings, ?_, htitle, fun hnames => ?_⟩
  · rw [hwarnings, ← tableLines_eq]
    rfl
  · have hpieces := pieces_reportTable hsummaries hnames
    rw [← hwarnings] at hpieces
    refine ⟨hpieces, ?_⟩
    rw [← htitle, hpieces]
    refine exists_congr fun count => ?_
    have hfilled : ("Diagnostics (" ++ toString count ++ "):").toList ∉ [[]] := by
      simp
    rw [List.mem_append, or_iff_left hfilled,
      List.mem_map_of_injective fun _ _ => String.toList_inj.mp]
    rfl

/-- Two files with a problem each, that leave three steps open. -/
def oddFiles : FileView :=
  textFiles [("steps_a", "End Step 1 5\nBegin Step 2 7\n"),
    ("b", "Begin Step 3 8\nBegin Step 3 9\nBegin Step 1 4\n")]

/-- The report on these files. -/
def oddReport : StepReport :=
  .ofFiles
    [(StepTracker.after "steps_a"
      [(1, .endStep ⟨0, by decide⟩ 5), (2, .beginStep ⟨1, by decide⟩ 7)]).summary,
    (StepTracker.after "b"
      [(1, .beginStep ⟨2, by decide⟩ 8), (2, .beginStep ⟨2, by decide⟩ 9),
        (3, .beginStep ⟨0, by decide⟩ 4)]).summary]

/-- Both problems are warned of, in the order of the files, and of each file the steps
    left open are noted behind them; and the problems stand behind the tables. -/
theorem problems_of_oddFiles :
    (analyseSteps oddFiles ⟨"steps_a", ["b"]⟩).outcome = .ok oddReport
      ∧ (analyseSteps oddFiles ⟨"steps_a", ["b"]⟩).notes.filter (·.level ≠ .info)
        = [⟨.warn, "steps_a:1: end of step 1 without a matching begin"⟩,
          ⟨.debug, "steps_a: step 2 begun at 7 never ended"⟩,
          ⟨.warn, "b:2: begin of step 3 while still open since 8; using the later begin"⟩,
          ⟨.debug, "b: step 1 begun at 4 never ended"⟩,
          ⟨.debug, "b: step 3 begun at 9 never ended"⟩]
      ∧ warnings (analyseSteps oddFiles ⟨"steps_a", ["b"]⟩).notes
        = ["steps_a:1: end of step 1 without a matching begin",
          "b:2: begin of step 3 while still open since 8; using the later begin"]
      ∧ oddReport.table = textOfLines (oddReport.tables ++
        ["", "Diagnostics (2):", "  steps_a:1: end of step 1 without a matching begin",
          "  b:2: begin of step 3 while still open since 8; using the later begin"])
      ∧ pieces '\n' oddReport.table.toList
        = (oddReport.tables ++
          ["", "Diagnostics (2):", "  steps_a:1: end of step 1 without a matching begin",
            "  b:2: begin of step 3 while still open since 8; using the later begin"]).map
              String.toList ++ [[]] := by
  have hok : (analyseSteps oddFiles ⟨"steps_a", ["b"]⟩).outcome = .ok oddReport := by
    decide +kernel
  have hmessages : oddReport.diagnostics.map Diagnostic.message
      = ["steps_a:1: end of step 1 without a matching begin",
        "b:2: begin of step 3 while still open since 8; using the later begin"] := by
    decide +kernel
  obtain ⟨hnotes, -, hwarnings, htable, -, htext⟩ := step_problems_told_alike hok
  obtain ⟨hlines, -⟩ := htext (by decide)
  rw [hmessages] at hwarnings
  rw [hwarnings] at htable hlines
  refine ⟨hok, ?_, hwarnings, htable, hlines⟩
  rw [hnotes]
  decide +kernel

end RunTimings
