import RunTimings.Analysis
import RunTimings.CommandLine.Arguments
import RunTimings.Dataset.Discovery
import RunTimings.FileSystem.Access
import RunTimings.Report.Document
import RunTimings.Report.Table

/-!
# Runs — a command carried out

A run looks for the files of a request, analyses them and only then, if nothing has failed, shows
its report or writes it to a file. What comes of it is a value: how the run ends, what it has shown
on standard output, and what the file system holds afterwards.

The same is done with any operations on files and standard output, one after the other (`carryOut`):
with those of the system, or with those on a machine that is kept as data. All logs are read before
the first of them is analysed, also those behind one that ends the analysis with a failure; what
comes of the run is the same as if each were read when it is needed, as long as nobody else changes
the files.
-/

namespace RunTimings

open RunTimings.Text

/-- A step report in some form. -/
def StepReport.inForm (report : StepReport) : Format → String
  | .text => report.table
  | .json => report.document

/-- A cycle report in some form. -/
def CycleReport.inForm (report : CycleReport) : Format → String
  | .text => report.table
  | .json => report.document

/-- The directories in which a request looks for files. -/
def Request.directories : Request → List String
  | .steps directory => [directory]
  | .cycles _ peerDirectory _ _ => [peerDirectory]

/-- The logs of a request as far as its directories tell. -/
def Request.logs (files : FileView) : Request → Journaled (List String)
  | .steps directory => StepDataset.paths <$> StepDataset.discover files directory
  | .cycles dataDirectory peerDirectory asker totalCycles =>
    CycleDataset.paths <$>
      CycleDataset.discover files dataDirectory peerDirectory asker totalCycles

/-- Carries out a request up to the text of its report. -/
def Request.report (files : FileView) (format : Format) : Request → Journaled String
  | .steps directory => do
    let dataset ← StepDataset.discover files directory
    .note .info [s!"asker {dataset.asker}, {dataset.participants.length} participants"]
    let report ← analyseSteps files dataset
    return report.inForm format
  | .cycles dataDirectory peerDirectory asker totalCycles => do
    let dataset ← CycleDataset.discover files dataDirectory peerDirectory asker totalCycles
    let report ← analyseCycles files dataset
    return report.inForm format

/-- How a run ends, apart from what it has shown on standard output. -/
inductive Finish where
  /-- The command line gives no command. -/
  | refused
  /-- Help was asked for. -/
  | helped
  /-- The request is met. -/
  | done (notes : List Note)
  /-- The request cannot be met. -/
  | failed (failure : Failure) (notes : List Note)
deriving DecidableEq, Repr

/-- The exit code of a run. -/
def Finish.exitCode : Finish → Nat
  | .refused => 2
  | .helped => 0
  | .done _ => 0
  | .failed _ _ => 1

/-- The notes that a run shows. -/
def Finish.notes : Finish → List Note
  | .done notes => notes
  | .failed _ notes => notes
  | _ => []

/-- A failure and its cause as they are shown at the end of a run. -/
def Failure.report (failure : Failure) : String :=
  "Error: " ++ failure.message ++ "\n" ++
    match failure.cause with
    | none => ""
    | some cause => "\nCaused by:\n    " ++ cause ++ "\n"

/-- What a run shows of its failure. -/
def Finish.errorText : Finish → String
  | .failed failure _ => failure.report
  | _ => ""

/-- How a run ends, and what it has shown on standard output; the text of help is left out. -/
structure Ending where
  finish : Finish
  output : String
deriving DecidableEq, Repr

/-- The end of a run without a command. -/
def Ending.refused : Ending :=
  ⟨.refused, ""⟩

def Ending.exitCode (ending : Ending) : Nat :=
  ending.finish.exitCode

def Ending.notes (ending : Ending) : List Note :=
  ending.finish.notes

def Ending.errorText (ending : Ending) : String :=
  ending.finish.errorText

/-- What is shown instead of a report that is written to a file. -/
def writtenLine (path : String) : String :=
  s!"Wrote {path}\n"

/-- The notes of some level and above; none if there is no level. -/
def notesShown (level : Option Level) (notes : List Note) : List Note :=
  match level with
  | none => []
  | some level => notesUpTo level notes

/-- The operations on files and on standard output, each an action of some kind. -/
structure System (m : Type → Type) where
  list : String → m (Except FileError (List DirectoryEntry))
  load : String → m (Except FileError LogContent)
  save : String → String → m (Except FileError Unit)
  print : String → m Unit

/-- Concludes a request with what came of it. Nothing is written or shown unless the report is
complete. -/
def Command.conclude {m : Type → Type} [Monad m] (command : Command) (system : System m)
    (setting : Option String) (journal : Journaled String) : m Finish := do
  let notes := notesShown (command.level setting) journal.notes
  match journal.outcome, command.out with
  | .error failure, _ => return .failed failure notes
  | .ok text, none =>
    system.print text
    return .done notes
  | .ok text, some path =>
    match ← system.save path text with
    | .error error => return .failed (.unwritten error) notes
    | .ok () =>
      system.print (writtenLine path)
      return .done notes

/-- The answer to a question that was asked beforehand. -/
def answerTo {α : Type} (answers : List (String × Except FileError α)) (path : String) :
    Except FileError α :=
  (answers.lookup path).getD (.error .notFound)

/-- Asks one question of several paths, one after the other. -/
def askEach {m : Type → Type} [Monad m] {α : Type} (ask : String → m α) (paths : List String) :
    m (List (String × α)) :=
  paths.mapM fun path => return (path, ← ask path)

/-- All that a request asks of the files: its directories first, then the logs that they tell of. -/
def Request.survey {m : Type → Type} [Monad m] (system : System m) (request : Request) :
    m FileView := do
  let lists ← askEach system.list request.directories
  let paths :=
    match (request.logs ⟨answerTo lists, answerTo []⟩).outcome with
    | .ok paths => paths
    | .error _ => []
  let logs ← askEach system.load paths
  return ⟨answerTo lists, answerTo logs⟩

/-- Carries out a command, one operation after the other. -/
def Command.carryOut {m : Type → Type} [Monad m] (system : System m) (setting : Option String)
    (command : Command) : m Finish := do
  let files ← command.request.survey system
  command.conclude system setting (command.request.report files command.format)

/-- Carries out a command line, one operation after the other. -/
def carryOut {m : Type → Type} [Monad m] (system : System m) (setting : Option String)
    (arguments : List String) : m Finish :=
  match Command.ofArguments arguments with
  | .error .usage => return .refused
  | .error .help => return .helped
  | .ok command => command.carryOut system setting

/-- A machine that is kept as data: its files, and what standard output has taken so far. -/
structure Machine where
  files : FileSystem
  output : String := ""
deriving DecidableEq, Repr

namespace Machine

/-- Writes a text to a file. A device may show it on standard output. -/
def save (path text : String) : StateM Machine (Except FileError Unit) :=
  fun machine =>
    let written := machine.files.save (Utf8.encode path.toList) (Utf8.encode text.toList)
    (written.outcome,
      { files := written.files
        output := if written.shown then machine.output ++ text else machine.output })

/-- Shows a text on standard output. -/
def print (text : String) : StateM Machine Unit :=
  fun machine => ((), { machine with output := machine.output ++ text })

/-- The operations of a machine, each on what the ones before it have left. -/
def system : System (StateM Machine) where
  list path := fun machine => (machine.files.view.list path, machine)
  load path := fun machine => (machine.files.view.load path, machine)
  save := save
  print := print

/-- How a run of a machine ends that is made of these files and has shown nothing so far, and the
files afterwards. -/
def ended (fs : FileSystem) (run : StateM Machine Finish) : Ending × FileSystem :=
  let (finish, machine) := run.run { files := fs }
  (⟨finish, machine.output⟩, machine.files)

end Machine

/-- Carries out a command. -/
def Command.run (command : Command) (setting : Option String) (fs : FileSystem) :
    Ending × FileSystem :=
  Machine.ended fs
    (command.conclude Machine.system setting (command.request.report fs.view command.format))

/-- Carries out a command line. -/
def run (arguments : List String) (setting : Option String) (fs : FileSystem) :
    Ending × FileSystem :=
  match Command.ofArguments arguments with
  | .error .usage => (.refused, fs)
  | .error .help => (⟨.helped, ""⟩, fs)
  | .ok command => command.run setting fs

end RunTimings
