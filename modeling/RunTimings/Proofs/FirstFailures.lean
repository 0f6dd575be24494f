import RunTimings.Proofs.ComparedRuns
import RunTimings.Proofs.FirstOffences
import RunTimings.Proofs.StepReports

/-! # First failures — the file at which a run ends

    A run goes through its files in a fixed order and ends with the first thing
    that is wrong.  Which thing that is can be said of the files, each by itself:
    a file fails because it cannot be opened, or because its log fails what is
    demanded of it.

    * `FileView.Fails` is how a file fails, and `FileView.FailsFirst` the first
      of some files to do so; `each_eq_error_iff` says that the analysis of the
      files ends with that one.
    * `CycleDataset.FailsAt` is the point at which a cycle analysis fails:
      participants come before the asker, and without them there is no asker.
    * `FileView.SameUntil` — another view of the files shows the same of all that
      is read up to such a point, and anything at all of the rest.
    * `first_failure_decides` — a run fails exactly with the failure at that
      point, and nothing behind the point can change it. -/

namespace RunTimings

/-! ## One file -/

/-- **HOW A FILE FAILS**: it cannot be opened, or its log fails a demand. -/
inductive FileView.Fails (files : FileView) (demand : Demand) (path : String)
    (failure : Failure) : Prop where
  | unopened (error : FileError) (refused : files.load path = .error error)
      (told : failure = .unopened path error)
  | content (log : LogContent) (opened : files.load path = .ok log)
      (fails : demand.FailsOn path log failure)

theorem openLog_eq_error_iff (files : FileView) (path : String) (failure : Failure) :
    (openLog files path).outcome = .error failure
      ↔ ∃ error, files.load path = .error error ∧ failure = .unopened path error := by
  show (files.load path).mapError (Failure.unopened path) = .error failure ↔ _
  cases files.load path with
  | error error =>
      constructor
      · intro heq
        exact ⟨error, rfl, (Except.error.inj heq).symm⟩
      · rintro ⟨_, heq, rfl⟩
        cases heq
        rfl
  | ok log =>
      constructor
      · intro heq
        cases heq
      · rintro ⟨_, heq, -⟩
        cases heq

/-- What fails once a log is open is how its content fails. -/
theorem opened_fails_iff {α : Type} {files : FileView} {demand : Demand} {path : String}
    {next : LogContent → Journaled α} {failure : Failure}
    (hnext : ∀ log, (next log).outcome = .error failure ↔ demand.FailsOn path log failure) :
    (openLog files path >>= next).outcome = .error failure
      ↔ files.Fails demand path failure := by
  rw [Journaled.bind_eq_andThen, Journaled.andThen_eq_error_iff, openLog_eq_error_iff]
  constructor
  · rintro (⟨error, hload, rfl⟩ | ⟨log, hopen, hfails⟩)
    · exact .unopened error hload rfl
    · exact .content log ((openLog_eq_ok_iff files path log).mp hopen) ((hnext log).mp hfails)
  · rintro (⟨error, hload, rfl⟩ | ⟨log, hload, hfails⟩)
    · exact .inl ⟨error, hload, rfl⟩
    · exact .inr ⟨log, (openLog_eq_ok_iff files path log).mpr hload, (hnext log).mpr hfails⟩

/-- A measure that is noted fails as the measure does. -/
theorem noted_eq_error_iff {α : Type} {measured : Except Failure α} {level : Level}
    {texts : α → List String} {failure : Failure} :
    (Journaled.ofExcept measured >>= fun a =>
        Journaled.note level (texts a) >>= fun _ => pure a).outcome = .error failure
      ↔ measured = .error failure :=
  Journaled.andThen_sure_eq_error_iff fun _ heq => by cases heq

/-- **STEPS OF A FILE**: they cannot be told exactly if the file fails, and then
    for that reason. -/
theorem analyseStepLog_eq_error_iff (files : FileView) (path : String) (failure : Failure) :
    (analyseStepLog files path).outcome = .error failure
      ↔ files.Fails .steps path failure := by
  refine opened_fails_iff fun log => ?_
  rw [← trackSteps_stop_iff]
  generalize trackSteps path log = tracked
  obtain ⟨tracker, stop⟩ := tracked
  cases stop with
  | none =>
      constructor
      · intro heq
        cases heq
      · intro heq
        cases heq
  | some reason =>
      constructor
      · intro heq
        exact congrArg some (Except.error.inj heq)
      · intro heq
        exact congrArg Except.error (Option.some.inj heq)

/-- **WAITS OF A FILE**: the same. -/
theorem analyseWaitLog_eq_error_iff (files : FileView) (cycles : Nat) (path : String)
    (failure : Failure) :
    (analyseWaitLog files cycles path).outcome = .error failure
      ↔ files.Fails (.waits cycles) path failure :=
  opened_fails_iff fun log =>
    noted_eq_error_iff.trans (sumWaits_eq_error_iff path cycles log failure)

/-- **DURATIONS OF A FILE**: the same. -/
theorem analyseAskerLog_eq_error_iff (files : FileView) (cycles : Nat) (path : String)
    (failure : Failure) :
    (analyseAskerLog files cycles path).outcome = .error failure
      ↔ files.Fails (.bounds cycles) path failure :=
  opened_fails_iff fun log =>
    noted_eq_error_iff.trans (measureCycles_eq_error_iff path cycles log failure)

/-! ## The first file -/

/-- A file fails, and of the files before it none does. -/
structure FileView.FailsFirst (files : FileView) (demand : Demand) (paths before : List String)
    (path : String) (failure : Failure) : Prop where
  split : ∃ after, paths = before ++ path :: after
  sound : ∀ earlier ∈ before, ∀ other, ¬ files.Fails demand earlier other
  fails : files.Fails demand path failure

section Files

variable {α : Type} {files : FileView} {demand : Demand} {analyse : String → Journaled α}
  (h : ∀ path failure, (analyse path).outcome = .error failure ↔ files.Fails demand path failure)

include h

/-- A file is analysed exactly if it does not fail. -/
theorem exists_outcome_iff (path : String) :
    (∃ result, (analyse path).outcome = .ok result)
      ↔ ∀ failure, ¬ files.Fails demand path failure :=
  exists_eq_ok_iff.trans (forall_congr' fun failure => not_congr (h path failure))

/-- Some files are analysed exactly if none of them fails. -/
theorem exists_each_iff (paths : List String) :
    (∃ results, (Journaled.each analyse paths).outcome = .ok results)
      ↔ ∀ path ∈ paths, ∀ failure, ¬ files.Fails demand path failure := by
  simp only [Journaled.each_eq_ok_iff]
  rw [exists_forall₂_iff]
  exact forall₂_congr fun path _ => exists_outcome_iff h path

/-- The analysis of some files fails exactly if one of them does. -/
theorem exists_each_eq_error_iff (paths : List String) :
    (∃ failure, (Journaled.each analyse paths).outcome = .error failure)
      ↔ ∃ path ∈ paths, ∃ failure, files.Fails demand path failure := by
  rw [← not_iff_not]
  simp only [not_exists, not_and]
  exact exists_eq_ok_iff.symm.trans (exists_each_iff h paths)

/-- **THE FIRST FILE**: the analysis of some files fails as the first of them that
    does. -/
theorem each_eq_error_iff (paths : List String) (failure : Failure) :
    (Journaled.each analyse paths).outcome = .error failure
      ↔ ∃ before path, files.FailsFirst demand paths before path failure := by
  rw [Journaled.each_eq_error_iff]
  simp only [h, exists_outcome_iff h]
  constructor
  · rintro ⟨before, path, after, hsplit, hbefore, hfails⟩
    exact ⟨before, path, ⟨after, hsplit⟩, hbefore, hfails⟩
  · rintro ⟨before, path, ⟨after, hsplit⟩, hbefore, hfails⟩
    exact ⟨before, path, after, hsplit, hbefore, hfails⟩

end Files

/-! ## The runs -/

/-- A step analysis fails as the analysis of its files does. -/
theorem analyseSteps_eq_error_each (files : FileView) (dataset : StepDataset) (failure : Failure) :
    (analyseSteps files dataset).outcome = .error failure
      ↔ (Journaled.each (analyseStepLog files) dataset.paths).outcome = .error failure := by
  simp only [analyseSteps]
  exact Journaled.andThen_sure_eq_error_iff fun _ heq => by cases heq

/-- **A STEP ANALYSIS FAILS** exactly if one of its files does. -/
theorem exists_analyseSteps_eq_error_iff (files : FileView) (dataset : StepDataset) :
    (∃ failure, (analyseSteps files dataset).outcome = .error failure)
      ↔ ∃ path ∈ dataset.paths, ∃ failure, files.Fails .steps path failure := by
  simp only [analyseSteps_eq_error_each]
  exact exists_each_eq_error_iff (analyseStepLog_eq_error_iff files) dataset.paths

/-- A step analysis fails as the first of its files that does. -/
theorem analyseSteps_eq_error_iff (files : FileView) (dataset : StepDataset) (failure : Failure) :
    (analyseSteps files dataset).outcome = .error failure
      ↔ ∃ before path, files.FailsFirst .steps dataset.paths before path failure := by
  rw [analyseSteps_eq_error_each]
  exact each_eq_error_iff (analyseStepLog_eq_error_iff files) dataset.paths failure

/-- **WHERE A CYCLE ANALYSIS FAILS**: at the first participant that fails, or at
    the asker if there are participants and none of them fails. -/
inductive CycleDataset.FailsAt (files : FileView) (dataset : CycleDataset) (failure : Failure) :
    List String → String → Prop where
  | participant {before : List String} {path : String}
      (first : files.FailsFirst (.waits dataset.totalCycles) dataset.participants before path
        failure) : dataset.FailsAt files failure before path
  | asker (attended : dataset.participants ≠ [])
      (sound : ∀ path ∈ dataset.participants, ∀ other,
        ¬ files.Fails (.waits dataset.totalCycles) path other)
      (fails : files.Fails (.bounds dataset.totalCycles) dataset.asker failure) :
      dataset.FailsAt files failure dataset.participants dataset.asker

/-- There is no average exactly if there is no participant. -/
theorem averageWaits_eq_error_iff (dataset : CycleDataset) (totals : WaitTotals)
    (failure : Failure) :
    averageWaits dataset totals = .error failure
      ↔ totals.participants = 0 ∧ failure = .noParticipants dataset.peerDirectory := by
  simp only [averageWaits, WaitTotals.averages]
  by_cases hnone : totals.participants = 0
  · rw [if_pos hnone]
    exact ⟨fun heq => ⟨hnone, (Except.error.inj heq).symm⟩, fun h => by rw [h.2]⟩
  · rw [if_neg hnone]
    constructor
    · intro heq
      cases heq
    · rintro ⟨hzero, -⟩
      exact absurd hzero hnone

/-- The cycle analysis fails link by link. -/
theorem analyseCycles_eq_error_links (files : FileView) (dataset : CycleDataset)
    (failure : Failure) :
    (analyseCycles files dataset).outcome = .error failure
      ↔ (Journaled.each (analyseWaitLog files dataset.totalCycles) dataset.participants).outcome
          = .error failure
        ∨ ∃ waits, (Journaled.each (analyseWaitLog files dataset.totalCycles)
              dataset.participants).outcome = .ok waits
          ∧ (dataset.participants = [] ∧ failure = .noParticipants dataset.peerDirectory
            ∨ dataset.participants ≠ []
              ∧ (analyseAskerLog files dataset.totalCycles dataset.asker).outcome
                = .error failure) := by
  simp only [analyseCycles]
  rw [Journaled.bind_eq_andThen, Journaled.andThen_eq_error_iff]
  refine or_congr_right (exists_congr fun waits => and_congr_right fun hwaits => ?_)
  have hcount : (waits.foldl WaitTotals.add (WaitTotals.zero dataset.totalCycles)).participants = 0
      ↔ dataset.participants = [] := by
    rw [participants_foldl, ← (Journaled.each_eq_ok_iff.mp hwaits).length_eq]
    show 0 + dataset.participants.length = 0 ↔ _
    rw [Nat.zero_add, List.length_eq_zero_iff]
  rw [Journaled.bind_eq_andThen, Journaled.andThen_eq_error_iff]
  show averageWaits _ _ = .error failure ∨ _ ↔ _
  rw [averageWaits_eq_error_iff, hcount]
  refine or_congr_right ?_
  constructor
  · rintro ⟨averages, haverages, h⟩
    have hsome := ((averageWaits_eq_ok_iff dataset _ averages).mp haverages).1
    refine ⟨fun hnone => hsome (hcount.mpr hnone), ?_⟩
    -- neither the note nor the report can fail
    rcases Journaled.andThen_eq_error_iff.mp h with heq | ⟨_, -, h⟩
    · cases heq
    · exact (Journaled.andThen_sure_eq_error_iff fun _ heq => by cases heq).mp h
  · rintro ⟨hsome, hasker⟩
    have hparticipants := fun hnone => hsome (hcount.mp hnone)
    refine ⟨_, (averageWaits_eq_ok_iff dataset _ _).mpr ⟨hparticipants, rfl⟩, ?_⟩
    refine Journaled.andThen_eq_error_iff.mpr (.inr ⟨(), rfl, ?_⟩)
    exact (Journaled.andThen_sure_eq_error_iff fun _ heq => by cases heq).mpr hasker

/-- **A CYCLE ANALYSIS FAILS** where it does, or for want of participants. -/
theorem analyseCycles_eq_error_iff (files : FileView) (dataset : CycleDataset)
    (failure : Failure) :
    (analyseCycles files dataset).outcome = .error failure
      ↔ (dataset.participants = [] ∧ failure = .noParticipants dataset.peerDirectory)
        ∨ ∃ before path, dataset.FailsAt files failure before path := by
  have hwaits := analyseWaitLog_eq_error_iff files dataset.totalCycles
  have hasker := analyseAskerLog_eq_error_iff files dataset.totalCycles dataset.asker failure
  rw [analyseCycles_eq_error_links, each_eq_error_iff hwaits]
  constructor
  · rintro (⟨before, path, hfirst⟩ | ⟨waits, hok, hnone | ⟨hsome, hfails⟩⟩)
    · exact .inr ⟨before, path, .participant hfirst⟩
    · exact .inl hnone
    · have hsound := (exists_each_iff hwaits _).mp ⟨waits, hok⟩
      exact .inr ⟨_, _, .asker hsome hsound (hasker.mp hfails)⟩
  · rintro (⟨hnone, hfailure⟩ | ⟨before, path, hfirst | ⟨hsome, hsound, hfails⟩⟩)
    · refine .inr ⟨[], ?_, .inl ⟨hnone, hfailure⟩⟩
      rw [hnone]
      rfl
    · exact .inl ⟨before, path, hfirst⟩
    · obtain ⟨waits, hok⟩ := (exists_each_iff hwaits _).mpr hsound
      exact .inr ⟨waits, hok, .inr ⟨hsome, hasker.mpr hfails⟩⟩

/-! ## What lies behind a failure -/

/-- **THE SAME UP TO A FAILURE**: another view shows the same of a file as far as
    a failure goes.  If the failure names a line these are the lines up to it,
    otherwise all lines; a file that one view cannot open the other cannot. -/
inductive FileView.SameUpTo (files other : FileView) (failure : Failure) (path : String) :
    Prop where
  | unopened (error : FileError) (refused : files.load path = .error error)
      (same : other.load path = .error error)
  | content (log log' : LogContent) (opened : files.load path = .ok log)
      (same : other.load path = .ok log')
      (upTo : ∀ line, failure.place = some (path, line) →
        log'.lines.take line = log.lines.take line)
      (whole : failure.place = none → log'.lines = log.lines)

/-- Another view shows the same of some files, and of a further one as far as a
    failure goes.  Nothing is said of any other file. -/
structure FileView.SameUntil (files other : FileView) (before : List String) (path : String)
    (failure : Failure) : Prop where
  before : ∀ earlier ∈ before, other.load earlier = files.load earlier
  last : files.SameUpTo other failure path

section Views

variable {files other : FileView} {demand : Demand} {path : String} {failure : Failure}

/-- Contents that begin with the same lines are the same up to a failure that
    names one of these, whatever the bytes behind them and however they end. -/
theorem FileView.SameUpTo.of_common {a b b' : List UInt8} {fault fault' : Option FileError}
    {line : Nat} (hends : EndsLine a) (hload : files.load path = .ok ⟨a ++ b, fault⟩)
    (hother : other.load path = .ok ⟨a ++ b', fault'⟩)
    (hplace : failure.place = some (path, line)) (hle : line ≤ a.count newline) :
    files.SameUpTo other failure path := by
  refine .content _ _ hload hother ?_ ?_
  · intro line' hplace'
    rw [hplace] at hplace'
    cases hplace'
    rw [take_lines_append hends b' fault' hle, take_lines_append hends b fault hle]
  · intro hnone
    rw [hplace] at hnone
    cases hnone

/-- How a log fails is decided by its lines up to the one that the failure names. -/
theorem Demand.FailsOn.same {log log' : LogContent} (h : demand.FailsOn path log failure)
    (upTo : ∀ line, failure.place = some (path, line) → log'.lines.take line = log.lines.take line)
    (whole : failure.place = none → log'.lines = log.lines) : demand.FailsOn path log' failure := by
  cases h with
  | offence line first place => exact .offence line (first.of_take (upTo line place)) place
  | lack clean lacks =>
      have hlines := whole (demand.unplaced lacks)
      exact .lack (hlines ▸ clean) (hlines ▸ lacks)

/-- A file fails in a view of which the same can be seen up to the failure. -/
theorem FileView.Fails.same (h : files.Fails demand path failure)
    (hsame : files.SameUpTo other failure path) : other.Fails demand path failure := by
  cases hsame with
  | unopened error refused same =>
      cases h with
      | unopened error' refused' told =>
          rw [refused] at refused'
          cases refused'
          exact .unopened error same told
      | content log opened fails =>
          rw [refused] at opened
          cases opened
  | content log log' opened same upTo whole =>
      cases h with
      | unopened error refused told =>
          rw [opened] at refused
          cases refused
      | content found opened' fails =>
          rw [opened] at opened'
          cases opened'
          exact .content log' same (fails.same upTo whole)

/-- A file that loads the same fails the same. -/
theorem FileView.Fails.of_load_eq (h : files.Fails demand path failure)
    (hload : other.load path = files.load path) : other.Fails demand path failure := by
  cases h with
  | unopened error refused told => exact .unopened error (hload.trans refused) told
  | content log opened fails => exact .content log (hload.trans opened) fails

/-- The first file to fail is the first in both views. -/
theorem FileView.FailsFirst.same {paths before : List String}
    (h : files.FailsFirst demand paths before path failure)
    (hsame : files.SameUntil other before path failure) :
    other.FailsFirst demand paths before path failure where
  split := h.split
  sound := fun earlier hmem reason hfails =>
    h.sound earlier hmem reason (hfails.of_load_eq (hsame.before earlier hmem).symm)
  fails := h.fails.same hsame.last

/-- A cycle analysis fails at the same point in both views. -/
theorem CycleDataset.FailsAt.same {dataset : CycleDataset} {before : List String}
    (h : dataset.FailsAt files failure before path)
    (hsame : files.SameUntil other before path failure) :
    dataset.FailsAt other failure before path := by
  cases h with
  | participant first => exact .participant (first.same hsame)
  | asker attended sound fails =>
      refine .asker attended ?_ (fails.same hsame.last)
      intro path hmem reason hfails
      exact sound path hmem reason (hfails.of_load_eq (hsame.before path hmem).symm)

end Views

/-- **THE FIRST FAILURE DECIDES**: a step analysis fails exactly if one of its
    files does, and as the first of them in the order asker, participants; a
    cycle analysis fails as its first participant that does, or for want of
    participants, or as the asker.  Whatever lies behind that point may be
    anything: the analysis of it fails in the same way. -/
theorem first_failure_decides (files : FileView) :
    (∀ dataset : StepDataset,
      ((∃ failure, (analyseSteps files dataset).outcome = .error failure)
        ↔ ∃ path ∈ dataset.asker :: dataset.participants, ∃ failure,
            files.Fails .steps path failure)
      ∧ ∀ failure, (analyseSteps files dataset).outcome = .error failure
        ↔ ∃ before path,
            files.FailsFirst .steps (dataset.asker :: dataset.participants) before path failure)
    ∧ (∀ (dataset : CycleDataset) (failure : Failure),
      (analyseCycles files dataset).outcome = .error failure
        ↔ (dataset.participants = [] ∧ failure = .noParticipants dataset.peerDirectory)
          ∨ ∃ before path, dataset.FailsAt files failure before path)
    ∧ (∀ (dataset : StepDataset) (failure : Failure) (before : List String) (path : String),
      files.FailsFirst .steps (dataset.asker :: dataset.participants) before path failure →
        ∀ other : FileView, files.SameUntil other before path failure →
          (analyseSteps other dataset).outcome = .error failure)
    ∧ (∀ (dataset : CycleDataset) (failure : Failure) (before : List String) (path : String),
      dataset.FailsAt files failure before path →
        ∀ other : FileView, files.SameUntil other before path failure →
          (analyseCycles other dataset).outcome = .error failure) := by
  refine ⟨fun dataset => ⟨exists_analyseSteps_eq_error_iff files dataset,
    analyseSteps_eq_error_iff files dataset⟩, analyseCycles_eq_error_iff files, ?_, ?_⟩
  · intro dataset failure before path hfirst other hsame
    exact (analyseSteps_eq_error_iff other dataset failure).mpr ⟨before, path, hfirst.same hsame⟩
  · intro dataset failure before path hfails other hsame
    exact (analyseCycles_eq_error_iff other dataset failure).mpr
      (.inr ⟨before, path, hfails.same hsame⟩)

/-- Two lines, the second of which waits for an unknown cycle. -/
def strayWaits : String :=
  "Waiting, id time: 2_1test0 1\nWaiting, id time: 2_1test3 1\n"

/-- Files of which several cannot be used: neither `b` nor `c`, and there is no
    asker. -/
def spoiltFiles : FileView :=
  textFiles [("a", "Waiting, id time: 1_1test0 5\n"), ("b", strayWaits ++ "Begin Step 9 1000\n"),
    ("c", "Waiting, id time: 3_1test7 1\n")]

/-- Files that are the same up to the second line of `b`, and no further. -/
def otherSpoiltFiles : FileView :=
  textFiles [("a", "Waiting, id time: 1_1test0 5\n"), ("b", strayWaits),
    ("run", "Start Cycle 4: 1000\n")]

/-- The analysis of the second files fails at the second line of `b`, for so does
    that of the first. -/
theorem failure_of_otherSpoiltFiles :
    (analyseCycles otherSpoiltFiles ⟨"run", ["a", "b", "c"], ".", 1⟩).outcome
      = .error (.cycleOutOfRange "b" 2 3 1) := by
  have hsound := (exists_each_iff (analyseWaitLog_eq_error_iff spoiltFiles 1) ["a"]).mp
    ⟨[[5]], by decide +kernel⟩
  have hload : spoiltFiles.load "b"
      = .ok ⟨strayWaits.toUTF8.toList ++ "Begin Step 9 1000\n".toUTF8.toList, none⟩ := by
    decide +kernel
  have hother : otherSpoiltFiles.load "b" = .ok ⟨strayWaits.toUTF8.toList ++ [], none⟩ := by
    decide +kernel
  have hoffence : (Demand.waits 1).FailsOn "b"
      ⟨strayWaits.toUTF8.toList ++ "Begin Step 9 1000\n".toUTF8.toList, none⟩
      (.cycleOutOfRange "b" 2 3 1) :=
    .offence 2 ⟨by decide +kernel, by decide +kernel⟩ rfl
  refine (first_failure_decides spoiltFiles).2.2.2 _ _ ["a"] "b"
    (.participant ⟨⟨["c"], rfl⟩, hsound, .content _ hload hoffence⟩) otherSpoiltFiles ⟨?_, ?_⟩
  · decide +kernel
  · exact .of_common (.inr (by decide +kernel)) hload hother rfl (by decide +kernel)

end RunTimings
