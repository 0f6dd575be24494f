import RunTimings.Proofs.CycleReports
import RunTimings.Proofs.StepLogs

/-! # The step analysis — what each file adds to the report

    The analysis takes one file after the other, and then one step after the
    other.  No file has a say in what is told of another; in the row of a step
    only the files have a say whose markers complete the step.

    * `FileView.StepsOf` is what is told of a file, from its own content and its
      own path; `analyseStepLog_eq_ok_iff` says that the analysis tells that.
    * `forall₂_means` is the step from files to rows: the means that go into a
      row belong, one by one and in order, to the files that complete the step.
    * `step_report_exactly` — there is a report exactly if all files are
      readable, it tells exactly what `StepReport.Tells` says, and its rows do
      not depend on files without data. -/

namespace RunTimings

/-! ## One file -/

/-- The steps of the file at a path: the summary of its own log, under its own
    path. -/
def FileView.StepsOf (files : FileView) (path : String) (summary : StepSummary) : Prop :=
  ∃ log, files.load path = .ok log ∧ summariseSteps path log = .ok summary

/-- What is analysed of a file are its steps; the notes taken on the way do not
    count. -/
theorem analyseStepLog_eq_ok_iff (files : FileView) (path : String) (summary : StepSummary) :
    (analyseStepLog files path).outcome = .ok summary ↔ files.StepsOf path summary := by
  simp only [analyseStepLog]
  rw [Journaled.bind_eq_andThen, Journaled.andThen_eq_ok_iff]
  refine exists_congr fun log => ?_
  rw [openLog_eq_ok_iff]
  refine and_congr_right fun _ => ?_
  simp only [summariseSteps]
  generalize trackSteps path log = tracked
  obtain ⟨tracker, stop⟩ := tracked
  cases stop with
  | some failure => exact Iff.rfl
  | none => exact Iff.rfl

/-- A file has steps exactly if it is readable. -/
theorem FileView.exists_stepsOf_iff (files : FileView) (path : String) :
    (∃ summary, files.StepsOf path summary) ↔ files.Readable path := by
  constructor
  · rintro ⟨summary, log, hload, hsummary⟩
    exact ⟨log, hload, ((summariseSteps_eq_ok_iff path log summary).mp hsummary).1⟩
  · rintro ⟨log, hload, hreadable⟩
    exact ⟨_, log, hload, (summariseSteps_eq_ok_iff path log _).mpr ⟨hreadable, rfl⟩⟩

/-- A file has its steps only once. -/
theorem FileView.StepsOf.unique {files : FileView} {path : String}
    {summary other : StepSummary} (h : files.StepsOf path summary)
    (hother : files.StepsOf path other) : summary = other := by
  have hok := (analyseStepLog_eq_ok_iff files path summary).mpr h
  rw [(analyseStepLog_eq_ok_iff files path other).mpr hother] at hok
  exact (Except.ok.inj hok).symm

/-- A file has data on a step exactly if its markers complete the step. -/
theorem FileView.StepsOf.data_iff {files : FileView} {path : String} {summary : StepSummary}
    (h : files.StepsOf path summary) (step : StepIndex) :
    ((summary.means.get step).isSome ↔ Completes step (files.markers path))
      ∧ (0 < summary.sampleCounts.get step ↔ Completes step (files.markers path)) := by
  obtain ⟨log, hload, hsummary⟩ := h
  have hreadable := ((summariseSteps_eq_ok_iff path log summary).mp hsummary).1
  exact ((opened_iff files path fun markers =>
    ((summary.means.get step).isSome ↔ Completes step markers)
      ∧ (0 < summary.sampleCounts.get step ↔ Completes step markers)).mp
    ⟨log, hload, hreadable, data_iff_completes hsummary step⟩).2

/-! ## All files -/

/-- The analysis, link by link. -/
theorem analyseSteps_eq_ok_iff (files : FileView) (dataset : StepDataset) (report : StepReport) :
    (analyseSteps files dataset).outcome = .ok report
      ↔ ∃ summaries, List.Forall₂ files.StepsOf dataset.paths summaries
        ∧ report = .ofFiles summaries := by
  simp only [analyseSteps]
  rw [Journaled.bind_eq_andThen, Journaled.andThen_eq_ok_iff]
  refine exists_congr fun summaries => ?_
  rw [Journaled.each_eq_ok_iff]
  simp only [analyseStepLog_eq_ok_iff]
  refine and_congr_right fun _ => ?_
  constructor
  · intro heq
    exact (Except.ok.inj heq).symm
  · rintro rfl
    rfl

/-- The files that complete a step, in the order of the dataset. -/
def StepDataset.completing (files : FileView) (dataset : StepDataset) (step : StepIndex) :
    List String :=
  dataset.paths.filter fun path => Completes step (files.markers path)

/-- The mean of a step in the file at a path. -/
def FileView.MeanOf (files : FileView) (step : StepIndex) (path : String) (mean : Float) : Prop :=
  ∃ summary, files.StepsOf path summary ∧ summary.means.get step = some mean

/-- The means that are there belong to the files that complete the step. -/
theorem forall₂_means {files : FileView} {paths : List String} {summaries : List StepSummary}
    (h : List.Forall₂ files.StepsOf paths summaries) (step : StepIndex) :
    List.Forall₂ (files.MeanOf step)
      (paths.filter fun path => Completes step (files.markers path))
      ((summaries.map (·.means)).filterMap (·.get step)) := by
  induction h with
  | nil => exact .nil
  | @cons path summary paths summaries hsummary _ ih =>
      obtain ⟨hdata, -⟩ := hsummary.data_iff step
      cases hmean : summary.means.get step with
      | none =>
          rw [hmean] at hdata
          have hincomplete : ¬ Completes step (files.markers path) := fun h => nomatch hdata.mpr h
          rw [List.filter_cons_of_neg (by simpa using hincomplete)]
          simpa [hmean] using ih
      | some mean =>
          rw [hmean] at hdata
          have hcomplete : Completes step (files.markers path) := hdata.mp rfl
          rw [List.filter_cons_of_pos (by simpa using hcomplete)]
          simpa [hmean] using List.Forall₂.cons ⟨summary, hsummary, hmean⟩ ih

/-- **WHAT A ROW TELLS**: how many files complete the step, and the sum of their
    means from left to right, over their number; without such files, no mean. -/
structure StepAggregate.Tells (files : FileView) (dataset : StepDataset) (step : StepIndex)
    (row : StepAggregate) : Prop where
  step_eq : row.step = step.val
  contributors : row.contributors = (dataset.completing files step).length
  none_iff : row.mean = none ↔ row.contributors = 0
  mean : ∃ means, List.Forall₂ (files.MeanOf step) (dataset.completing files step) means
    ∧ (row.contributors ≠ 0 →
      row.mean = some (means.foldl (· + ·) (-0.0) / Float.ofNat row.contributors))

/-- **WHAT A REPORT TELLS**: the steps of every file in order, with samples where
    the file completes a step, and one row for each step. -/
structure StepReport.Tells (files : FileView) (dataset : StepDataset) (report : StepReport) :
    Prop where
  own : List.Forall₂ files.StepsOf dataset.paths report.files
  data : ∀ step, List.Forall₂ (fun path summary =>
    0 < summary.sampleCounts.get step ↔ Completes step (files.markers path))
      dataset.paths report.files
  length : report.steps.length = stepCount
  row : ∀ step : StepIndex, ∃ row, report.steps[step.val]? = some row
    ∧ row.Tells files dataset step

/-- A row stands at the place of its step. -/
theorem getElem?_aggregateSteps (files : List (PerStep (Option Float))) (step : StepIndex) :
    (aggregateSteps files)[step.val]? = some (aggregateStep files step) := by
  simp only [aggregateSteps, PerStep.steps]
  rw [List.getElem?_map, List.getElem?_eq_getElem (by simp), List.getElem_finRange]
  rfl

/-- The row that is made of the summaries of the files. -/
theorem tells_aggregateStep {files : FileView} {dataset : StepDataset}
    {summaries : List StepSummary} (h : List.Forall₂ files.StepsOf dataset.paths summaries)
    (step : StepIndex) :
    (aggregateStep (summaries.map (·.means)) step).Tells files dataset step := by
  have hmeans := forall₂_means h step
  simp only [aggregateStep]
  generalize (summaries.map (·.means)).filterMap (·.get step) = values at hmeans ⊢
  refine ⟨rfl, hmeans.length_eq.symm, ?_, values, hmeans, ?_⟩
  · by_cases hnone : values = []
    · simp [hnone]
    · simp [hnone]
  · intro hsome
    exact if_neg fun hnone => hsome (List.length_eq_zero_iff.mpr hnone)

/-- The row of a step is determined by the files that complete the step. -/
theorem StepAggregate.Tells.unique {files : FileView} {dataset other : StepDataset}
    {step : StepIndex} {row row' : StepAggregate} (h : row.Tells files dataset step)
    (hother : row'.Tells files other step)
    (hsame : dataset.completing files step = other.completing files step) : row = row' := by
  obtain ⟨means, hmeans, hmean⟩ := h.mean
  obtain ⟨means', hmeans', hmean'⟩ := hother.mean
  have hstep : row.step = row'.step := h.step_eq.trans hother.step_eq.symm
  have hcount : row.contributors = row'.contributors := by
    rw [h.contributors, hother.contributors, hsame]
  -- a file has one mean of the step only, so the same means are added up
  have hone : Relator.RightUnique (files.MeanOf step) := by
    rintro path mean mean' ⟨summary, hsummary, hget⟩ ⟨summary', hsummary', hget'⟩
    rw [hsummary.unique hsummary', hget'] at hget
    exact (Option.some.inj hget).symm
  have hequal : means = means' := by
    rw [← hsame] at hmeans'
    exact List.right_unique_forall₂' hone hmeans hmeans'
  have htold : row.mean = row'.mean := by
    by_cases hnone : row.contributors = 0
    · rw [h.none_iff.mpr hnone, hother.none_iff.mpr (hcount ▸ hnone)]
    · rw [hmean hnone, hmean' (hcount ▸ hnone), hequal, hcount]
  obtain ⟨place, value, count⟩ := row
  obtain ⟨place', value', count'⟩ := row'
  obtain rfl : place = place' := hstep
  obtain rfl : value = value' := htold
  obtain rfl : count = count' := hcount
  rfl

/-- What is reported tells of the files. -/
theorem StepReport.sound {files : FileView} {dataset : StepDataset} {report : StepReport}
    (h : (analyseSteps files dataset).outcome = .ok report) : report.Tells files dataset := by
  obtain ⟨summaries, hsummaries, rfl⟩ := (analyseSteps_eq_ok_iff files dataset report).mp h
  refine ⟨hsummaries, ?_, ?_, ?_⟩
  · intro step
    exact hsummaries.imp fun path summary hsummary => (hsummary.data_iff step).2
  · show (PerStep.steps.map _).length = stepCount
    rw [List.length_map]
    exact List.length_finRange
  · intro step
    exact ⟨_, getElem?_aggregateSteps _ step, tells_aggregateStep hsummaries step⟩

/-- No two reports tell the same files in different ways. -/
theorem StepReport.Tells.unique {files : FileView} {dataset : StepDataset}
    {report other : StepReport} (h : report.Tells files dataset)
    (hother : other.Tells files dataset) : report = other := by
  have hfiles : report.files = other.files :=
    List.right_unique_forall₂' (fun _ _ _ hone htwo => hone.unique htwo) h.own hother.own
  have hsteps : report.steps = other.steps := by
    refine List.ext_getElem? ?_
    intro place
    by_cases hplace : place < stepCount
    · obtain ⟨row, hrow, htells⟩ := h.row ⟨place, hplace⟩
      obtain ⟨row', hrow', htells'⟩ := hother.row ⟨place, hplace⟩
      rw [hrow, hrow', htells.unique htells' rfl]
    · rw [List.getElem?_eq_none (by have := h.length; omega),
        List.getElem?_eq_none (by have := hother.length; omega)]
  obtain ⟨summaries, rows⟩ := report
  obtain ⟨summaries', rows'⟩ := other
  obtain rfl : summaries = summaries' := hfiles
  obtain rfl : rows = rows' := hsteps
  rfl

/-- All files have steps exactly if every file is readable. -/
theorem FileView.exists_forall₂_stepsOf_iff (files : FileView) (paths : List String) :
    (∃ summaries, List.Forall₂ files.StepsOf paths summaries)
      ↔ ∀ path ∈ paths, files.Readable path := by
  rw [exists_forall₂_iff]
  exact forall₂_congr fun path _ => files.exists_stepsOf_iff path

/-- Of readable files a report is made, and of no others. -/
theorem exists_stepReport_iff (files : FileView) (dataset : StepDataset) :
    (∃ report, (analyseSteps files dataset).outcome = .ok report)
      ↔ ∀ path ∈ dataset.paths, files.Readable path := by
  rw [← files.exists_forall₂_stepsOf_iff]
  simp only [analyseSteps_eq_ok_iff]
  constructor
  · rintro ⟨_, summaries, hsummaries, -⟩
    exact ⟨summaries, hsummaries⟩
  · rintro ⟨summaries, hsummaries⟩
    exact ⟨_, summaries, hsummaries, rfl⟩

/-- **THE STEP REPORT**: there is a report exactly if every file is readable; it is
    a report exactly if it tells of the files what is to be told; and the row of
    a step is the same in all datasets with the same files that complete the
    step, whatever other files they have, and wherever these stand. -/
theorem step_report_exactly (files : FileView) (dataset : StepDataset) :
    ((∃ report, (analyseSteps files dataset).outcome = .ok report)
        ↔ ∀ path ∈ dataset.paths, files.Readable path)
      ∧ (∀ report, (analyseSteps files dataset).outcome = .ok report
        ↔ report.Tells files dataset)
      ∧ ∀ (other : StepDataset) (report report' : StepReport) (step : StepIndex),
        (analyseSteps files dataset).outcome = .ok report →
        (analyseSteps files other).outcome = .ok report' →
        dataset.completing files step = other.completing files step →
        report.steps[step.val]? = report'.steps[step.val]? := by
  have hexists := exists_stepReport_iff files dataset
  refine ⟨hexists, fun report => ⟨StepReport.sound, ?_⟩, ?_⟩
  · intro htells
    -- there is some report, and it tells the same
    have hreadable := (files.exists_forall₂_stepsOf_iff dataset.paths).mp ⟨_, htells.own⟩
    obtain ⟨made, hmade⟩ := hexists.mpr hreadable
    rw [htells.unique (StepReport.sound hmade)]
    exact hmade
  · intro other report report' step hreport hreport' hsame
    obtain ⟨row, hrow, htells⟩ := (StepReport.sound hreport).row step
    obtain ⟨row', hrow', htells'⟩ := (StepReport.sound hreport').row step
    rw [hrow, hrow', htells.unique htells' hsame]

end RunTimings
