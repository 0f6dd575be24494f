import RunTimings.Analysis
import RunTimings.Proofs.BoundRuns
import RunTimings.Proofs.WaitRuns

/-! # The cycle analysis — when there is a report, and what it says

    The analysis reads one log after the other and gives up at the first thing
    that is wrong with any of them.  Here the order is forgotten: the conditions
    under which there is a report are on the files, each by itself.

    * `analyseWaitLog_eq_ok_iff` and `analyseAskerLog_eq_ok_iff` are the two
      kinds of files;
    * `CycleDataset.Analysable` collects the conditions, and
      `CycleReport.Tells` says every number of the report;
    * `cycle_report_exactly` — the analysis succeeds exactly under these
      conditions, and its report tells exactly that. -/

namespace RunTimings

/-! ## One file -/

/-- The markers of the file at a path; a file that cannot be opened has none. -/
def FileView.markers (files : FileView) (path : String) : List Marker :=
  match files.load path with
  | .ok log => log.markers
  | .error _ => []

/-- The file at a path can be opened, and its log is readable. -/
def FileView.Readable (files : FileView) (path : String) : Prop :=
  ∃ log, files.load path = .ok log ∧ log.Readable

/-- The numbers of a file's markers fit 64 bits. -/
theorem FileView.signed64_of_mem_markers (files : FileView) {path : String} {marker : Marker}
    (h : marker ∈ files.markers path) : Signed64 marker.number := by
  simp only [FileView.markers] at h
  cases hload : files.load path with
  | error error =>
      rw [hload] at h
      exact absurd h List.not_mem_nil
  | ok log =>
      rw [hload] at h
      exact LogContent.signed64_of_mem_markers h

theorem openLog_eq_ok_iff (files : FileView) (path : String) (log : LogContent) :
    (openLog files path).outcome = .ok log ↔ files.load path = .ok log := by
  show (files.load path).mapError (Failure.unopened path) = .ok log ↔ _
  cases files.load path with
  | error error =>
      constructor
      · intro heq
        cases heq
      · intro heq
        cases heq
  | ok content =>
      show Except.ok content = Except.ok log ↔ Except.ok content = Except.ok log
      constructor
      · intro heq
        rw [Except.ok.inj heq]
      · intro heq
        rw [Except.ok.inj heq]

/-- A log is opened, measured and noted; only the first two may fail. -/
theorem measured_eq_ok_iff {α : Type} (files : FileView) (path : String)
    (measure : LogContent → Except Failure α) (level : Level) (texts : α → List String)
    (result : α) :
    (openLog files path >>= fun log => Journaled.ofExcept (measure log) >>= fun a =>
        Journaled.note level (texts a) >>= fun _ => pure a).outcome = .ok result
      ↔ ∃ log, files.load path = .ok log ∧ measure log = .ok result := by
  rw [Journaled.bind_eq_andThen, Journaled.andThen_eq_ok_iff]
  refine exists_congr fun log => ?_
  rw [openLog_eq_ok_iff, Journaled.bind_eq_andThen, Journaled.andThen_eq_ok_iff]
  refine and_congr_right fun _ => ?_
  constructor
  · rintro ⟨a, hmeasure, heq⟩
    cases heq
    exact hmeasure
  · intro hmeasure
    exact ⟨result, hmeasure, rfl⟩

/-- What holds of a log that opens and is readable, said of the file. -/
theorem opened_iff (files : FileView) (path : String) (P : List Marker → Prop) :
    (∃ log, files.load path = .ok log ∧ log.Readable ∧ P log.markers)
      ↔ files.Readable path ∧ P (files.markers path) := by
  have hmarkers : ∀ {log}, files.load path = .ok log → files.markers path = log.markers := by
    intro log hload
    simp only [FileView.markers]
    rw [hload]
  constructor
  · rintro ⟨log, hload, hreadable, hP⟩
    exact ⟨⟨log, hload, hreadable⟩, (hmarkers hload).symm ▸ hP⟩
  · rintro ⟨⟨log, hload, hreadable⟩, hP⟩
    exact ⟨log, hload, hreadable, hmarkers hload ▸ hP⟩

/-- **PARTICIPANTS**: a participant's file gives waits exactly if it is readable
    and its waits keep the rule. -/
theorem analyseWaitLog_eq_ok_iff (files : FileView) (cycles : Nat) (path : String)
    (sums : List Int) :
    (analyseWaitLog files cycles path).outcome = .ok sums
      ↔ (files.Readable path ∧ WaitsFit cycles (files.markers path))
        ∧ sums = (List.range cycles).map fun c => (waitsOf c (files.markers path)).sum := by
  have hopen := measured_eq_ok_iff files path (sumWaits path cycles) .debug
    (fun waits => [path ++ ": waits " ++ noteList (waits.map toString)]) sums
  refine hopen.trans ?_
  simp only [sumWaits_eq_ok_iff, and_assoc]
  exact opened_iff files path fun markers => WaitsFit cycles markers
    ∧ sums = (List.range cycles).map fun c => (waitsOf c markers).sum

/-- **THE ASKER**: the asker's file gives durations exactly if it is readable,
    its cycles are known, and the durations are those between the last bounds. -/
theorem analyseAskerLog_eq_ok_iff (files : FileView) (cycles : Nat) (path : String)
    (durations : List Int) :
    (analyseAskerLog files cycles path).outcome = .ok durations
      ↔ (files.Readable path ∧ BoundsKnown cycles (files.markers path))
        ∧ DurationsOf cycles (files.markers path) durations := by
  have hopen := measured_eq_ok_iff files path (measureCycles path cycles) .info
    (fun durations => [path ++ ": cycle durations " ++ noteList (durations.map toString)])
    durations
  refine hopen.trans ?_
  simp only [measureCycles_eq_ok_iff, and_assoc]
  exact opened_iff files path fun markers => BoundsKnown cycles markers
    ∧ DurationsOf cycles markers durations

/-! ## All files -/

/-- **WHEN THERE IS A REPORT**: every file can be read and classified to its
    end, the participants' waits keep their rule, and the asker bounds every
    cycle with positive timestamps. -/
structure CycleDataset.Analysable (files : FileView) (dataset : CycleDataset) : Prop where
  participants : dataset.participants ≠ []
  readable : ∀ path ∈ dataset.paths, files.Readable path
  waits : ∀ path ∈ dataset.participants, WaitsFit dataset.totalCycles (files.markers path)
  known : BoundsKnown dataset.totalCycles (files.markers dataset.asker)
  bounded : ∀ cycle < dataset.totalCycles, ∃ start finish,
    lastBound .start cycle (files.markers dataset.asker) = some start ∧ 0 < start
      ∧ lastBound .finish cycle (files.markers dataset.asker) = some finish ∧ 0 < finish

/-- All waits of a cycle, in the files of all participants. -/
def CycleDataset.allWaits (files : FileView) (dataset : CycleDataset) (cycle : Nat) : List Int :=
  dataset.participants.flatMap fun path => waitsOf cycle (files.markers path)

/-- **WHAT A REPORT TELLS**: one row for each cycle, with the exact sum of all
    waits over the number of participants, and the time between the last bounds. -/
structure CycleReport.Tells (files : FileView) (dataset : CycleDataset) (report : CycleReport) :
    Prop where
  participants : report.participants = dataset.participants.length
  length : report.cycles.length = dataset.totalCycles
  row : ∀ cycle < dataset.totalCycles, ∃ start finish,
    lastBound .start cycle (files.markers dataset.asker) = some start
      ∧ lastBound .finish cycle (files.markers dataset.asker) = some finish
      ∧ Signed64 (finish - start)
      ∧ report.cycles[cycle]? = some
        ⟨cycle, Float.ofInt (dataset.allWaits files cycle).sum
          / Float.ofNat dataset.participants.length, finish - start⟩

/-- The waits of every participant, side by side. -/
theorem eachWaits_eq_ok_iff (files : FileView) (cycles : Nat) (paths : List String)
    (waits : List (List Int)) :
    (Journaled.each (analyseWaitLog files cycles) paths).outcome = .ok waits
      ↔ (∀ path ∈ paths, files.Readable path ∧ WaitsFit cycles (files.markers path))
        ∧ waits = paths.map fun path =>
          (List.range cycles).map fun c => (waitsOf c (files.markers path)).sum := by
  rw [Journaled.each_eq_ok_iff]
  simp only [analyseWaitLog_eq_ok_iff]
  exact forall₂_eq_map_iff

/-- The averages of at least one participant. -/
theorem averageWaits_eq_ok_iff (dataset : CycleDataset) (totals : WaitTotals)
    (averages : List Float) :
    averageWaits dataset totals = .ok averages
      ↔ totals.participants ≠ 0
        ∧ averages = totals.totals.map fun total => quotient total totals.participants := by
  simp only [averageWaits, WaitTotals.averages]
  by_cases hnone : totals.participants = 0
  · rw [if_pos hnone]
    constructor
    · intro heq
      cases heq
    · rintro ⟨hsome, -⟩
      exact absurd hnone hsome
  · rw [if_neg hnone]
    constructor
    · intro heq
      exact ⟨hnone, (Except.ok.inj heq).symm⟩
    · rintro ⟨-, rfl⟩
      rfl

/-- The analysis, link by link. -/
theorem analyseCycles_eq_ok_iff (files : FileView) (dataset : CycleDataset)
    (report : CycleReport) :
    (analyseCycles files dataset).outcome = .ok report
      ↔ ∃ waits averages durations,
        (Journaled.each (analyseWaitLog files dataset.totalCycles) dataset.participants).outcome
            = .ok waits
          ∧ averageWaits dataset
              (waits.foldl WaitTotals.add (WaitTotals.zero dataset.totalCycles)) = .ok averages
          ∧ (analyseAskerLog files dataset.totalCycles dataset.asker).outcome = .ok durations
          ∧ report = .ofMeasures waits.length averages durations := by
  have hcount : ∀ waits : List (List Int),
      (waits.foldl WaitTotals.add (WaitTotals.zero dataset.totalCycles)).participants
        = waits.length := by
    intro waits
    rw [participants_foldl]
    exact Nat.zero_add _
  simp only [analyseCycles]
  rw [Journaled.bind_eq_andThen, Journaled.andThen_eq_ok_iff]
  refine exists_congr fun waits => ?_
  rw [Journaled.bind_eq_andThen, Journaled.andThen_eq_ok_iff]
  constructor
  · rintro ⟨hwaits, averages, haverages, h⟩
    obtain ⟨_, -, h⟩ := Journaled.andThen_eq_ok_iff.mp h
    obtain ⟨durations, hdurations, h⟩ := Journaled.andThen_eq_ok_iff.mp h
    refine ⟨averages, durations, hwaits, haverages, hdurations, ?_⟩
    rw [← hcount waits]
    exact (Except.ok.inj h).symm
  · rintro ⟨averages, durations, hwaits, haverages, hdurations, rfl⟩
    refine ⟨hwaits, averages, haverages, ?_⟩
    refine Journaled.andThen_eq_ok_iff.mpr ⟨(), rfl, ?_⟩
    refine Journaled.andThen_eq_ok_iff.mpr ⟨durations, hdurations, ?_⟩
    rw [← hcount waits]
    rfl

/-! ## The rows -/

/-- A row stands where there are both an average and a duration. -/
theorem CycleReport.getElem?_ofMeasures (participants : Nat) (averages : List Float)
    (durations : List Int) (cycle : Nat) :
    (CycleReport.ofMeasures participants averages durations).cycles[cycle]?
      = averages[cycle]?.bind fun average =>
          durations[cycle]?.map fun duration => ⟨cycle, average, duration⟩ := by
  show ((averages.zip durations).zipIdx.map _)[cycle]? = _
  rw [List.getElem?_map, List.getElem?_zipIdx, List.zip, List.getElem?_zipWith]
  cases averages[cycle]? with
  | none => rfl
  | some average =>
      cases durations[cycle]? with
      | none => rfl
      | some duration => simp

theorem CycleReport.length_ofMeasures (participants : Nat) (averages : List Float)
    (durations : List Int) :
    (CycleReport.ofMeasures participants averages durations).cycles.length
      = min averages.length durations.length := by
  simp [CycleReport.ofMeasures]

/-- The totals over all participants are the sums of all waits. -/
theorem CycleDataset.totals_eq (files : FileView) (dataset : CycleDataset) :
    ((dataset.participants.map fun path => (List.range dataset.totalCycles).map fun c =>
        (waitsOf c (files.markers path)).sum).foldl WaitTotals.add
          (WaitTotals.zero dataset.totalCycles)).totals
      = (List.range dataset.totalCycles).map fun c => (dataset.allWaits files c).sum := by
  refine (totals_of_lists dataset.totalCycles _).trans (List.map_congr_left fun cycle hmem => ?_)
  have hentry : ((fun waits : List Int => waits[cycle]?.getD 0) ∘ fun path =>
      (List.range dataset.totalCycles).map fun c => (waitsOf c (files.markers path)).sum)
      = fun path => (waitsOf cycle (files.markers path)).sum := by
    funext path
    show ((List.range dataset.totalCycles).map _)[cycle]?.getD 0 = _
    rw [List.getElem?_map, List.getElem?_range (List.mem_range.mp hmem)]
    rfl
  rw [sum_waitsInPlace, List.map_map, hentry]
  show _ = (dataset.participants.flatMap _).sum
  rw [List.flatMap_def, List.sum_flatten, List.map_map]
  rfl

/-- The time between two positive timestamps of a log fits 64 bits. -/
theorem FileView.signed64_duration (files : FileView) (path : String) {cycle : Nat}
    {start finish : Int} (hstart : lastBound .start cycle (files.markers path) = some start)
    (hspos : 0 < start) (hfinish : lastBound .finish cycle (files.markers path) = some finish)
    (hfpos : 0 < finish) : Signed64 (finish - start) := by
  have hfits : ∀ {bound t}, lastBound bound cycle (files.markers path) = some t → Signed64 t := by
    intro bound t hlast
    obtain ⟨marker, hmem, hbound⟩ := exists_of_lastBound hlast
    have hnumber := files.signed64_of_mem_markers hmem
    rwa [Marker.number_of_boundOf hbound] at hnumber
  exact Signed64.sub (hfits hfinish) (hfits hstart) (Int.le_of_lt hfpos) (Int.le_of_lt hspos)

/-- No two reports tell the same files in different ways. -/
theorem CycleReport.Tells.unique {files : FileView} {dataset : CycleDataset}
    {report other : CycleReport} (h : report.Tells files dataset)
    (hother : other.Tells files dataset) : report = other := by
  have hcycles : report.cycles = other.cycles := by
    refine List.ext_getElem? ?_
    intro cycle
    by_cases hcycle : cycle < dataset.totalCycles
    · obtain ⟨start, finish, hstart, hfinish, -, hrow⟩ := h.row cycle hcycle
      obtain ⟨start', finish', hstart', hfinish', -, hrow'⟩ := hother.row cycle hcycle
      obtain rfl := Option.some.inj (hstart.symm.trans hstart')
      obtain rfl := Option.some.inj (hfinish.symm.trans hfinish')
      rw [hrow, hrow']
    · rw [List.getElem?_eq_none (by have := h.length; omega),
        List.getElem?_eq_none (by have := hother.length; omega)]
  have hparticipants : report.participants = other.participants :=
    h.participants.trans hother.participants.symm
  cases report
  cases other
  simp_all

/-- Of analysable files a report is made. -/
theorem CycleDataset.Analysable.exists_report {files : FileView} {dataset : CycleDataset}
    (h : dataset.Analysable files) :
    ∃ report, (analyseCycles files dataset).outcome = .ok report := by
  -- each link of the chain comes out well by its own condition
  have hwaits := (eachWaits_eq_ok_iff files dataset.totalCycles dataset.participants _).mpr
    ⟨fun path hpath => ⟨h.readable path (List.mem_append_left _ hpath), h.waits path hpath⟩, rfl⟩
  obtain ⟨durations, hdurations⟩ :=
    (exists_durationsOf_iff dataset.totalCycles (files.markers dataset.asker)).mpr h.bounded
  have hasker := (analyseAskerLog_eq_ok_iff files dataset.totalCycles dataset.asker _).mpr
    ⟨⟨h.readable dataset.asker (List.mem_append_right _ (List.mem_singleton_self _)), h.known⟩,
      hdurations⟩
  refine ⟨_, (analyseCycles_eq_ok_iff files dataset _).mpr
    ⟨_, _, durations, hwaits, (averageWaits_eq_ok_iff dataset _ _).mpr ⟨?_, rfl⟩, hasker, rfl⟩⟩
  rw [participants_foldl, List.length_map]
  have := List.length_pos_iff.mpr h.participants
  omega

/-- What is reported is reported of analysable files, and tells of them. -/
theorem CycleReport.sound {files : FileView} {dataset : CycleDataset} {report : CycleReport}
    (h : (analyseCycles files dataset).outcome = .ok report) :
    dataset.Analysable files ∧ report.Tells files dataset := by
  obtain ⟨waits, averages, durations, hwaits, haverages, hasker, rfl⟩ :=
    (analyseCycles_eq_ok_iff files dataset report).mp h
  obtain ⟨heach, rfl⟩ := (eachWaits_eq_ok_iff files _ _ _).mp hwaits
  obtain ⟨hsome, rfl⟩ := (averageWaits_eq_ok_iff dataset _ _).mp haverages
  obtain ⟨⟨hreadable, hknown⟩, hdurations⟩ := (analyseAskerLog_eq_ok_iff files _ _ _).mp hasker
  -- the totals count the participants from zero on
  rw [participants_foldl, List.length_map] at hsome
  rw [CycleDataset.totals_eq, participants_foldl, List.length_map]
  have hcount : (WaitTotals.zero dataset.totalCycles).participants
      + dataset.participants.length = dataset.participants.length := Nat.zero_add _
  rw [hcount] at hsome ⊢
  refine ⟨⟨?_, ?_, ?_, hknown, ?_⟩, ⟨rfl, ?_, ?_⟩⟩
  · exact List.length_pos_iff.mp (Nat.pos_of_ne_zero hsome)
  · intro path hpath
    rcases List.mem_append.mp hpath with hparticipant | hlast
    · exact (heach path hparticipant).1
    · rw [List.mem_singleton.mp hlast]
      exact hreadable
  · exact fun path hpath => (heach path hpath).2
  · exact (exists_durationsOf_iff _ _).mp ⟨durations, hdurations⟩
  · -- neither of the two columns is cut short by the other
    rw [CycleReport.length_ofMeasures, List.length_map, List.length_map, List.length_range,
      hdurations.1, Nat.min_self]
  · intro cycle hcycle
    obtain ⟨start, finish, hstart, hspos, hfinish, hfpos, hget⟩ := hdurations.2 cycle hcycle
    refine ⟨start, finish, hstart, hfinish,
      files.signed64_duration dataset.asker hstart hspos hfinish hfpos, ?_⟩
    rw [CycleReport.getElem?_ofMeasures, hget, List.getElem?_map, List.getElem?_map,
      List.getElem?_range hcycle]
    rfl

/-- **THE CYCLE REPORT**: there is a report exactly if the files are analysable,
    and it is a report exactly if it tells of them what is to be told. -/
theorem cycle_report_exactly (files : FileView) (dataset : CycleDataset) :
    ((∃ report, (analyseCycles files dataset).outcome = .ok report)
        ↔ dataset.Analysable files)
      ∧ ∀ report, (analyseCycles files dataset).outcome = .ok report
        ↔ dataset.Analysable files ∧ report.Tells files dataset := by
  refine ⟨⟨?_, CycleDataset.Analysable.exists_report⟩, fun report => ⟨CycleReport.sound, ?_⟩⟩
  · rintro ⟨report, hreport⟩
    exact (CycleReport.sound hreport).1
  · rintro ⟨hfiles, htells⟩
    -- there is some report, and it tells the same
    obtain ⟨made, hmade⟩ := hfiles.exists_report
    rw [htells.unique (CycleReport.sound hmade).2]
    exact hmade

end RunTimings
