import RunTimings.Proofs.CommandLines
import RunTimings.Proofs.DistinctLogs
import RunTimings.Proofs.FilesRead
import RunTimings.Proofs.SavedFiles

/-! # Output files — a report shown or written

    A run looks for its files, analyses them and makes its report before anything
    is written, so what a file is to take is what would have been shown, also where
    that file is one of those that were read.

    * `Request.report_eq_error_iff` — a report is missing if its files are not found
      or cannot be analysed; making it out of the analysis never fails.
    * `conclude_of_error` — then nothing is written, whatever writing does.
    * `Delivered` says how else a run can end: the file holds the report and nothing
      else has changed, or a device has taken it, or it cannot be written;
      `Command.run_of_some` — and it ends so.
    * `report_to_file` — the two ways of asking for one report, side by side; and
      `report_lost_in_device`, where no file ever holds it. -/

namespace RunTimings

open RunTimings.Text

/-! ## Where a report is missing -/

/-- A request of which nothing can be reported: its files are not found, or their
    analysis fails. -/
inductive Request.Fails (files : FileView) (failure : Failure) : Request → Prop where
  | stepsUndiscovered {directory : String}
      (discovery : (StepDataset.discover files directory).outcome = .error failure) :
      Fails files failure (.steps directory)
  | stepsUnanalysed {directory : String} {dataset : StepDataset}
      (discovery : (StepDataset.discover files directory).outcome = .ok dataset)
      (analysis : (analyseSteps files dataset).outcome = .error failure) :
      Fails files failure (.steps directory)
  | cyclesUndiscovered {dataDirectory peerDirectory asker : String} {totalCycles : Nat}
      (discovery : (CycleDataset.discover files dataDirectory peerDirectory asker
        totalCycles).outcome = .error failure) :
      Fails files failure (.cycles dataDirectory peerDirectory asker totalCycles)
  | cyclesUnanalysed {dataDirectory peerDirectory asker : String} {totalCycles : Nat}
      {dataset : CycleDataset}
      (discovery : (CycleDataset.discover files dataDirectory peerDirectory asker
        totalCycles).outcome = .ok dataset)
      (analysis : (analyseCycles files dataset).outcome = .error failure) :
      Fails files failure (.cycles dataDirectory peerDirectory asker totalCycles)

/-- An analysis of which a report is made fails if it fails itself. -/
theorem Journaled.made_eq_error_iff {α β : Type} {analysis : Journaled α} {make : α → β}
    {failure : Failure} :
    (analysis.andThen fun a => .done (make a)).outcome = .error failure
      ↔ analysis.outcome = .error failure :=
  Journaled.andThen_sure_eq_error_iff fun _ => nofun

/-- A report fails with its discovery or its analysis, and in no other way. -/
theorem Request.report_eq_error_iff {files : FileView} {request : Request} {format : Format}
    {failure : Failure} :
    (request.report files format).outcome = .error failure ↔ request.Fails files failure := by
  cases request with
  | steps directory =>
      refine Journaled.andThen_eq_error_iff.trans ?_
      constructor
      · rintro (hdiscovery | ⟨dataset, hdiscovery, h⟩)
        · exact .stepsUndiscovered hdiscovery
        · exact .stepsUnanalysed hdiscovery (Journaled.made_eq_error_iff.mp h)
      · rintro (hdiscovery | ⟨hdiscovery, hanalysis⟩)
        · exact .inl hdiscovery
        · exact .inr ⟨_, hdiscovery, Journaled.made_eq_error_iff.mpr hanalysis⟩
  | cycles dataDirectory peerDirectory asker totalCycles =>
      refine Journaled.andThen_eq_error_iff.trans ?_
      constructor
      · rintro (hdiscovery | ⟨dataset, hdiscovery, h⟩)
        · exact .cyclesUndiscovered hdiscovery
        · exact .cyclesUnanalysed hdiscovery (Journaled.made_eq_error_iff.mp h)
      · rintro (hdiscovery | _ | hdiscovery | ⟨hdiscovery, hanalysis⟩)
        · exact .inl hdiscovery
        · exact .inr ⟨_, hdiscovery, Journaled.made_eq_error_iff.mpr hanalysis⟩

/-- The cycles of the numbered run can be reported. -/
theorem not_fails_numberedRun (failure : Failure) :
    ¬ (Request.cycles "run" "run" "1" 1).Fails numberedRun.view failure := by
  have hanalysis : (analyseCycles numberedRun.view
      ⟨"run/1", ["run/1", "run/2"], "run", 1⟩).outcome.toBool = true := by
    decide +kernel
  have hdiscovery := discover_numberedRun "1"
  rintro (_ | _ | hfails | ⟨hfound, hfails⟩)
  · cases hdiscovery.symm.trans hfails
  · cases hdiscovery.symm.trans hfound
    rw [show joinPath "run" "1" = "run/1" by rfl] at hfails
    rw [hfails] at hanalysis
    cases hanalysis

/-- So there is a report on them. -/
theorem report_numberedRun (format : Format) :
    ∃ text, ((Request.cycles "run" "run" "1" 1).report numberedRun.view format).outcome
      = .ok text := by
  rw [exists_eq_ok_iff]
  intro failure hreport
  exact not_fails_numberedRun failure (Request.report_eq_error_iff.mp hreport)

/-! ## Reports are texts -/

theorem textOfLines_ne_empty (line : String) (rest : List String) :
    textOfLines (line :: rest) ≠ "" := by
  intro hempty
  have hlist := congrArg String.toList hempty
  simp [textOfLines] at hlist

theorem Json.document_ne_empty (value : Json) : value.document ≠ "" := by
  intro hempty
  have hlist := congrArg String.toList hempty
  simp [Json.document] at hlist

theorem StepReport.inForm_ne_empty (report : StepReport) (format : Format) :
    report.inForm format ≠ "" := by
  cases format with
  | text => exact textOfLines_ne_empty _ _
  | json => exact Json.document_ne_empty _

theorem CycleReport.inForm_ne_empty (report : CycleReport) (format : Format) :
    report.inForm format ≠ "" := by
  cases format with
  | text => exact textOfLines_ne_empty _ _
  | json => exact Json.document_ne_empty _

/-- No report is empty. -/
theorem Request.report_ne_empty {files : FileView} {request : Request} {format : Format}
    {text : String} (h : (request.report files format).outcome = .ok text) : text ≠ "" := by
  cases request with
  | steps directory =>
      obtain ⟨dataset, -, h⟩ := Journaled.andThen_eq_ok_iff.mp h
      obtain ⟨-, -, h⟩ := Journaled.andThen_eq_ok_iff.mp h
      obtain ⟨report, -, h⟩ := Journaled.andThen_eq_ok_iff.mp h
      cases h
      exact report.inForm_ne_empty format
  | cycles dataDirectory peerDirectory asker totalCycles =>
      obtain ⟨dataset, -, h⟩ := Journaled.andThen_eq_ok_iff.mp h
      obtain ⟨report, -, h⟩ := Journaled.andThen_eq_ok_iff.mp h
      cases h
      exact report.inForm_ne_empty format

/-! ## How a run is concluded -/

section

variable {m : Type → Type} [Monad m] {command : Command} {system : System m}
  {setting : Option String} {journal : Journaled String}

/-- **NOTHING IS WRITTEN** of a report that is missing, and nothing is shown, whatever
    writing and showing would do. -/
theorem conclude_of_error {failure : Failure} (h : journal.outcome = .error failure) :
    command.conclude system setting journal
      = pure (.failed failure (notesShown (command.level setting) journal.notes)) := by
  simp only [Command.conclude, h]

end

/-- What a run shows apart from its notes, and what it leaves. -/
structure Alike (one other : Ending × FileSystem) : Prop where
  exitCode : one.1.exitCode = other.1.exitCode
  output : one.1.output = other.1.output
  errorText : one.1.errorText = other.1.errorText
  files : one.2 = other.2

/-- A run that ends in a failure, shows nothing and leaves all files as they are. -/
structure Unmet (fs : FileSystem) (failure : Failure) (result : Ending × FileSystem) : Prop where
  exitCode : result.1.exitCode = 1
  output : result.1.output = ""
  errorText : result.1.errorText = failure.report
  files : result.2 = fs

theorem Unmet.alike {fs : FileSystem} {failure : Failure} {one other : Ending × FileSystem}
    (h : Unmet fs failure one) (h' : Unmet fs failure other) : Alike one other :=
  ⟨h.exitCode.trans h'.exitCode.symm, h.output.trans h'.output.symm,
    h.errorText.trans h'.errorText.symm, h.files.trans h'.files.symm⟩

/-- How a run ends that has a text for a file. -/
inductive Delivered (fs : FileSystem) (path text : String) (result : Ending × FileSystem) :
    Prop where
  /-- The file cannot be written, or not to its end. -/
  | refused {error : FileError} (exitCode : result.1.exitCode = 1) (output : result.1.output = "")
      (errorText : result.1.errorText = "Error: " ++ error.message ++ "\n")
      (unsaved : (fs.save (Utf8.encode path.toList) (Utf8.encode text.toList)).outcome
        = .error error)
      (others : fs.ChangedAt result.2 (Utf8.encode path.toList))
  /-- The file holds the text. -/
  | held {found : Destination} (exitCode : result.1.exitCode = 0)
      (output : result.1.output = "Wrote " ++ path ++ "\n") (errorText : result.1.errorText = "")
      (leads : fs.find .make (Utf8.encode path.toList) = .ok found) (regular : ¬ found.ToDevice)
      (holds : result.2.node? found.place = some (.file (Utf8.encode text.toList)))
      (readable : ¬ fs.Denies found.place .read → fs.faults.lookup found.place = none →
        result.2.view.load path = .ok ⟨Utf8.encode text.toList, none⟩)
      (others : fs.ChangedAt result.2 (Utf8.encode path.toList))
  /-- A device has taken the text. -/
  | taken {place : Place} {input : List UInt8} {sink : Sink} (exitCode : result.1.exitCode = 0)
      (output : result.1.output = (if sink = .output then text else "") ++ "Wrote " ++ path ++ "\n")
      (errorText : result.1.errorText = "")
      (leads : fs.find .make (Utf8.encode path.toList) = .ok ⟨place, some (.device input sink)⟩)
      (files : result.2 = fs)

namespace Delivered

variable {fs : FileSystem} {path text : String} {result : Ending × FileSystem}

/-- Where there is a file that can be written, and room, it holds the text. -/
theorem held_of_file {place : Place} {kept : List UInt8} (h : Delivered fs path text result)
    (hfound : fs.find .make (Utf8.encode path.toList) = .ok ⟨place, some (.file kept)⟩)
    (hallowed : ¬ fs.Denies place .write) (hroom : fs.room = none) :
    result.1.exitCode = 0 ∧ result.1.output = "Wrote " ++ path ++ "\n" ∧
      result.2.node? place = some (.file (Utf8.encode text.toList)) ∧
      ∀ other, other ≠ place → result.2.node? other = fs.node? other := by
  cases h with
  | refused _ _ _ unsaved =>
      have hsaved := FileSystem.save_eq_ok hfound (by simp) (by simp) hallowed hroom
        (Utf8.encode text.toList)
      cases hsaved.symm.trans unsaved
  | held exitCode output _ leads _ holds _ others =>
      cases hfound.symm.trans leads
      refine ⟨exitCode, output, holds, fun other hother => others.others other ?_⟩
      intro found hleads
      cases leads.symm.trans hleads
      exact hother
  | taken _ _ _ leads => cases hfound.symm.trans leads

/-- Where a device takes the text and yields nothing, the text is lost, and the run
    succeeds all the same. -/
theorem lost_in_device {place : Place} {input : List UInt8} {sink : Sink}
    (h : Delivered fs path text result)
    (hfound : fs.find .make (Utf8.encode path.toList) = .ok ⟨place, some (.device input sink)⟩)
    (hallowed : ¬ fs.Denies place .write) (hroom : fs.room = none) (hfull : sink ≠ .full)
    (hforgotten : fs.view.load path = .ok ⟨[], none⟩) (htext : text ≠ "") :
    ¬ (result.1.exitCode = 1 ∨
      result.2.view.load path = .ok ⟨Utf8.encode text.toList, none⟩) := by
  cases h with
  | refused _ _ _ unsaved =>
      have hsaved := FileSystem.save_eq_ok hfound (by simp) (by simp [hfull]) hallowed hroom
        (Utf8.encode text.toList)
      cases hsaved.symm.trans unsaved
  | held _ _ _ leads regular =>
      cases hfound.symm.trans leads
      exact absurd ⟨_, _, rfl⟩ regular
  | taken exitCode _ _ _ files =>
      rw [exitCode, files, hforgotten]
      rintro (hone | hheld)
      · cases hone
      · have hbytes : [] = Utf8.encode text.toList :=
          congrArg LogContent.bytes (Except.ok.inj hheld)
        have hempty := Utf8.decode_encode text.toList
        rw [← hbytes] at hempty
        exact htext (String.toList_inj.mp hempty.symm)

end Delivered

/-! ## Runs of a command -/

/-- A run goes on from where its first action has led. -/
theorem Machine.ended_bind {α : Type} {fs : FileSystem} {action : StateM Machine α}
    {next : α → StateM Machine Finish} {a : α} {machine : Machine}
    (h : action.run ⟨fs, ""⟩ = (a, machine)) :
    Machine.ended fs (action >>= next)
      = (⟨((next a).run machine).1, ((next a).run machine).2.output⟩,
          ((next a).run machine).2.files) := by
  simp only [Machine.ended, run_bind_of h]
  rfl

/-- What a run shows of a text that it writes, before it says so. -/
def FileSystem.Written.display (written : FileSystem.Written) (text : String) : String :=
  if written.shown then text else ""

namespace Command

variable {command : Command} {fs : FileSystem}

theorem run_of_error (setting : Option String) {failure : Failure}
    (h : (command.request.report fs.view command.format).outcome = .error failure) :
    Unmet fs failure (command.run setting fs) := by
  rw [run, conclude_of_error h]
  exact ⟨rfl, rfl, rfl, rfl⟩

theorem run_of_none (setting : Option String) {text : String}
    (h : (command.request.report fs.view command.format).outcome = .ok text)
    (hout : command.out = none) :
    ∃ notes, command.run setting fs = (⟨.done notes, text⟩, fs) := by
  have hprint : (Machine.system.print text).run ⟨fs, ""⟩ = ((), ⟨fs, "" ++ text⟩) := rfl
  simp only [run, conclude, h, hout]
  rw [Machine.ended_bind hprint, String.empty_append]
  exact ⟨_, rfl⟩

section

variable {text path : String}

theorem run_save (fs : FileSystem) (path text : String) :
    (Machine.system.save path text).run ⟨fs, ""⟩ =
      let written := fs.save (Utf8.encode path.toList) (Utf8.encode text.toList)
      (written.outcome, ⟨written.files, written.display text⟩) := by
  show (_, (⟨_, if _ then "" ++ text else ""⟩ : Machine)) = _
  rw [String.empty_append]
  rfl

theorem run_of_unsaved (setting : Option String) {error : FileError}
    (h : (command.request.report fs.view command.format).outcome = .ok text)
    (hout : command.out = some path)
    (herror : (fs.save (Utf8.encode path.toList) (Utf8.encode text.toList)).outcome
      = .error error) :
    ∃ notes, command.run setting fs =
      let written := fs.save (Utf8.encode path.toList) (Utf8.encode text.toList)
      (⟨.failed (.unwritten error) notes, written.display text⟩, written.files) := by
  simp only [run, conclude, h, hout]
  rw [Machine.ended_bind (run_save fs path text), herror]
  exact ⟨_, rfl⟩

theorem run_of_saved (setting : Option String)
    (h : (command.request.report fs.view command.format).outcome = .ok text)
    (hout : command.out = some path)
    (hok : (fs.save (Utf8.encode path.toList) (Utf8.encode text.toList)).outcome = .ok ()) :
    ∃ notes, command.run setting fs =
      let written := fs.save (Utf8.encode path.toList) (Utf8.encode text.toList)
      (⟨.done notes, written.display text ++ ("Wrote " ++ path ++ "\n")⟩, written.files) := by
  simp only [run, conclude, h, hout]
  rw [Machine.ended_bind (run_save fs path text), hok]
  exact ⟨_, rfl⟩

end

theorem run_of_some (setting : Option String) {text path : String}
    (h : (command.request.report fs.view command.format).outcome = .ok text)
    (hout : command.out = some path) : Delivered fs path text (command.run setting fs) := by
  cases houtcome : (fs.save (Utf8.encode path.toList) (Utf8.encode text.toList)).outcome with
  | error error =>
      obtain ⟨notes, hrun⟩ := run_of_unsaved setting h hout houtcome
      rw [hrun]
      refine .refused rfl ?_ ?_ houtcome (fs.changedAt_save _ _)
      · exact if_neg (Bool.eq_false_iff.mp (FileSystem.shown_of_unsaved houtcome))
      · exact String.append_empty
  | ok done =>
      obtain ⟨notes, hrun⟩ := run_of_saved setting h hout houtcome
      obtain ⟨found, hfound⟩ := FileSystem.found_of_saved houtcome
      rw [hrun]
      by_cases hdevice : found.ToDevice
      · obtain ⟨place, node⟩ := found
        obtain ⟨input, sink, rfl⟩ := hdevice
        obtain ⟨hfiles, hshown⟩ := FileSystem.save_device hfound houtcome
        refine .taken rfl ?_ rfl hfound hfiles
        simp only [FileSystem.Written.display, hshown, String.append_assoc]
      · obtain ⟨hfilled, hshown, hnode⟩ := FileSystem.filledAt_of_save hfound hdevice houtcome
        refine .held rfl ?_ rfl hfound hdevice ?_ (hfilled.load hfound hnode)
          (fs.changedAt_save _ _)
        · simp [FileSystem.Written.display, hshown]
        · exact (hfilled.node _).trans (if_pos rfl)

/-- Commands for one report and one file, or none, differ in their notes only,
    whatever the environment says. -/
theorem run_alike {other : Command} (hrequest : other.request = command.request)
    (hformat : other.format = command.format) (hout : other.out = command.out)
    (setting setting' : Option String) :
    Alike (other.run setting' fs) (command.run setting fs) := by
  have hsame : other.request.report fs.view other.format
      = command.request.report fs.view command.format := by
    rw [hrequest, hformat]
  cases hreport : (command.request.report fs.view command.format).outcome with
  | error failure =>
      exact (run_of_error setting' (hsame ▸ hreport)).alike (run_of_error setting hreport)
  | ok text =>
      cases hpath : command.out with
      | none =>
          obtain ⟨_, hrun⟩ := run_of_none setting hreport hpath
          obtain ⟨_, hrun'⟩ := run_of_none setting' (hsame ▸ hreport) (hout.trans hpath)
          rw [hrun, hrun']
          exact ⟨rfl, rfl, rfl, rfl⟩
      | some path =>
          have hpath' := hout.trans hpath
          cases hsave : (fs.save (Utf8.encode path.toList) (Utf8.encode text.toList)).outcome with
          | error error =>
              obtain ⟨_, hrun⟩ := run_of_unsaved setting hreport hpath hsave
              obtain ⟨_, hrun'⟩ := run_of_unsaved setting' (hsame ▸ hreport) hpath' hsave
              rw [hrun, hrun']
              exact ⟨rfl, rfl, rfl, rfl⟩
          | ok done =>
              obtain ⟨_, hrun⟩ := run_of_saved setting hreport hpath hsave
              obtain ⟨_, hrun'⟩ := run_of_saved setting' (hsame ▸ hreport) hpath' hsave
              rw [hrun, hrun']
              exact ⟨rfl, rfl, rfl, rfl⟩

end Command

theorem run_of_command {arguments : List String} {command : Command}
    (h : Command.ofArguments arguments = .ok command) (setting : Option String)
    (fs : FileSystem) : run arguments setting fs = command.run setting fs := by
  rw [run, h]

/-- A command that is to write no file shows its report, if there is one. -/
theorem run_of_shown {arguments : List String} {command : Command} {fs : FileSystem}
    {text : String} (h : Command.ofArguments arguments = .ok command) (setting : Option String)
    (hout : command.out = none)
    (hreport : (command.request.report fs.view command.format).outcome = .ok text) :
    (run arguments setting fs).1.exitCode = 0 ∧ (run arguments setting fs).1.output = text := by
  obtain ⟨notes, hrun⟩ := Command.run_of_none setting hreport hout
  rw [run_of_command h, hrun]
  exact ⟨rfl, rfl⟩

/-! ## Shown or written -/

/-- **SHOWN OR WRITTEN**: on the same file system, a command that shows its report and
    the same command with a file that is to take it.

    * All is read before anything is written: carried out one operation after the
      other, a command line ends as if it had read the file system as it was.
    * If the files are not found or not analysed, nothing is shown and nothing is
      written, whether or not there is a file to take the report.
    * Otherwise what would have been shown is what the file holds, and no other place
      is changed; or the file cannot be written; or a device, which is no file, has
      taken it.
    * Every command can be given a file, and neither flags nor the environment change
      anything but the notes. -/
theorem report_to_file {arguments : List String} {command : Command}
    (h : Command.ofArguments arguments = .ok command) (setting : Option String)
    (fs : FileSystem) :
    Machine.ended fs (carryOut Machine.system setting arguments) = run arguments setting fs ∧
    (∀ failure, command.request.Fails fs.view failure →
      Unmet fs failure (run arguments setting fs)) ∧
    (command.out = none →
      (run arguments setting fs).2 = fs ∧
      ((run arguments setting fs).1.exitCode = 0 ∨
        ∃ failure, command.request.Fails fs.view failure) ∧
      (∀ text, (run arguments setting fs).1.exitCode = 0 →
        (run arguments setting fs).1.output = text →
        ∀ arguments' setting' path verbosity,
          Command.ofArguments arguments'
              = .ok { command with out := some path, verbosity := verbosity } →
            Delivered fs path text (run arguments' setting' fs)) ∧
      ∃ before word after, arguments = before ++ word :: after ∧
        ∀ path, path ≠ "" →
          Command.ofArguments (before ++ word :: ("--out=" ++ path) :: after)
              = .ok { command with out := some path } ∧
          (¬ Reading.looksLikeOption path →
            Command.ofArguments (before ++ word :: "-o" :: path :: after)
              = .ok { command with out := some path })) ∧
    ∀ arguments' setting' verbosity,
      Command.ofArguments arguments' = .ok { command with verbosity := verbosity } →
        Alike (run arguments' setting' fs) (run arguments setting fs) := by
  refine ⟨ended_carryOut arguments setting fs, ?_, ?_, ?_⟩
  · intro failure hfails
    rw [run_of_command h]
    exact Command.run_of_error setting (Request.report_eq_error_iff.mpr hfails)
  · intro hout
    rw [run_of_command h]
    cases hreport : (command.request.report fs.view command.format).outcome with
    | error failure =>
        have unmet := Command.run_of_error setting hreport
        refine ⟨unmet.files, .inr ⟨failure, Request.report_eq_error_iff.mp hreport⟩, ?_,
          ofArguments_sentTo h hout⟩
        intro text hcode
        exact absurd (unmet.exitCode.symm.trans hcode) Nat.one_ne_zero
    | ok text =>
        obtain ⟨notes, hrun⟩ := Command.run_of_none setting hreport hout
        rw [hrun]
        refine ⟨rfl, .inl rfl, ?_, ofArguments_sentTo h hout⟩
        rintro _ - rfl arguments' setting' path verbosity h'
        rw [run_of_command h']
        exact Command.run_of_some setting' hreport rfl
  · intro arguments' setting' verbosity h'
    rw [run_of_command h, run_of_command h']
    exact Command.run_alike (by rfl) (by rfl) (by rfl) setting setting'

/-- The numbered run, with the report of its cycles written over a log that it was made
    of; the other log stays as it is. -/
theorem writtenOver_numberedRun :
    Command.ofArguments ["cycles", "run", "--asker=1", "--cycles=1"]
        = .ok ⟨.cycles "run" "run" "1" 1, .text, none, {}⟩ ∧
      (run ["cycles", "run", "--asker=1", "--cycles=1"] none numberedRun).1.exitCode = 0 ∧
      (let written := run ["cycles", "run", "--asker=1", "--cycles=1", "-qo", "run/2"]
        (some "debug") numberedRun
      written.1.exitCode = 0 ∧
        written.1.output = "Wrote run/2\n" ∧
        written.2.node? (FileSystem.workDirectory ++ [Utf8.encode "run".toList, [50]])
          = some (.file (Utf8.encode (run ["cycles", "run", "--asker=1", "--cycles=1"] none
              numberedRun).1.output.toList)) ∧
        written.2.node? (FileSystem.workDirectory ++ [Utf8.encode "run".toList, [49]])
          = some (.file (Utf8.encode "Start Cycle 0: 1000\nEnd ID: 1_1test0, 1500\n".toList))) := by
  have hcommand : Command.ofArguments ["cycles", "run", "--asker=1", "--cycles=1"]
      = .ok ⟨.cycles "run" "run" "1" 1, .text, none, {}⟩ := by
    rfl
  have hnamed : Command.ofArguments ["cycles", "run", "--asker=1", "--cycles=1", "-qo", "run/2"]
      = .ok ⟨.cycles "run" "run" "1" 1, .text, some "run/2", { quiet := true }⟩ := by
    rfl
  have hfound : numberedRun.find .make (Utf8.encode "run/2".toList)
      = .ok ⟨FileSystem.workDirectory ++ [Utf8.encode "run".toList, [50]],
          some (.file (Utf8.encode "Waiting, id time: 2_1test0 30\n".toList))⟩ := by
    decide +kernel
  obtain ⟨-, hends, hdelivered, -⟩ := (report_to_file hcommand none numberedRun).2.2.1 rfl
  have hcode := hends.resolve_right fun ⟨failure, hfails⟩ => not_fails_numberedRun failure hfails
  have delivered := hdelivered _ hcode rfl _ (some "debug") "run/2" { quiet := true } hnamed
  obtain ⟨hexit, houtput, hholds, hothers⟩ :=
    delivered.held_of_file hfound (by decide +kernel) (by decide +kernel)
  refine ⟨hcommand, hcode, hexit, houtput.trans (by decide +kernel), hholds, ?_⟩
  exact (hothers _ (by decide)).trans (by decide +kernel)

/-! ## A report that no file holds -/

/-- The numbered run, with a link that leads to a device which forgets what it is given. -/
def forgetfulRun : FileSystem :=
  numberedRun.makeEntry (Utf8.encode "out".toList) (.link (Utf8.encode "/dev/null".toList))

/-- The link changes nothing in the report. -/
theorem report_forgetfulRun (format : Format) :
    (Request.cycles "run" "run" "1" 1).report forgetfulRun.view format
      = (Request.cycles "run" "run" "1" 1).report numberedRun.view format := by
  have hlist : forgetfulRun.view.list "run" = numberedRun.view.list "run" := by
    decide +kernel
  have hlogs : ∀ path ∈ ["run/1", "run/2", "run/1"],
      forgetfulRun.view.load path = numberedRun.view.load path := by
    decide +kernel
  refine Request.report_congr format (List.forall_mem_singleton.mpr hlist) ?_
  intro paths hpaths
  have hfound : ((Request.cycles "run" "run" "1" 1).logs forgetfulRun.view).outcome
      = .ok ["run/1", "run/2", "run/1"] := by
    show (Journaled.andThen (CycleDataset.discover _ _ _ _ _) _).outcome = _
    rw [CycleDataset.discover_congr "run" "1" 1 hlist, Journaled.outcome_andThen,
      discover_numberedRun "1"]
    rfl
  cases hfound.symm.trans hpaths
  exact hlogs

/-- **LOST IN A DEVICE**: a report is made and shown, and where it is to be written to a
    file, the run succeeds, but there is no file that holds it. -/
theorem report_lost_in_device :
    Command.ofArguments ["cycles", "run", "--asker=1", "--cycles=1"]
        = .ok ⟨.cycles "run" "run" "1" 1, .text, none, {}⟩ ∧
      Command.ofArguments ["cycles", "run", "--asker=1", "--cycles=1", "-o", "out"]
        = .ok ⟨.cycles "run" "run" "1" 1, .text, some "out", {}⟩ ∧
      (run ["cycles", "run", "--asker=1", "--cycles=1"] none forgetfulRun).1.exitCode = 0 ∧
      ¬ ((run ["cycles", "run", "--asker=1", "--cycles=1", "-o", "out"] none
            forgetfulRun).1.exitCode = 1 ∨
          (run ["cycles", "run", "--asker=1", "--cycles=1", "-o", "out"] none
              forgetfulRun).2.view.load "out"
            = .ok ⟨Utf8.encode (run ["cycles", "run", "--asker=1", "--cycles=1"] none
                forgetfulRun).1.output.toList, none⟩) := by
  have hcommand : Command.ofArguments ["cycles", "run", "--asker=1", "--cycles=1"]
      = .ok ⟨.cycles "run" "run" "1" 1, .text, none, {}⟩ := by
    rfl
  have hnamed : Command.ofArguments ["cycles", "run", "--asker=1", "--cycles=1", "-o", "out"]
      = .ok ⟨.cycles "run" "run" "1" 1, .text, some "out", {}⟩ := by
    rfl
  have hfound : forgetfulRun.find .make (Utf8.encode "out".toList)
      = .ok ⟨FileSystem.deviceDirectory ++ [Utf8.encode "null".toList],
          some (.device [] .nowhere)⟩ := by
    decide +kernel
  have hforgotten : forgetfulRun.view.load "out" = .ok ⟨[], none⟩ := by
    decide +kernel
  obtain ⟨text, hreport⟩ := report_numberedRun .text
  rw [← report_forgetfulRun] at hreport
  obtain ⟨hcode, houtput⟩ := run_of_shown hcommand none rfl hreport
  have delivered : Delivered forgetfulRun "out" text
      (run ["cycles", "run", "--asker=1", "--cycles=1", "-o", "out"] none forgetfulRun) := by
    rw [run_of_command hnamed]
    exact Command.run_of_some none hreport rfl
  refine ⟨hcommand, hnamed, hcode, ?_⟩
  rw [houtput]
  exact delivered.lost_in_device hfound (by decide +kernel) (by decide +kernel) (by decide)
    hforgotten (Request.report_ne_empty hreport)

end RunTimings
