import RunTimings.CommandLine.Run

/-!
# The program

Has a command carried out on the real files and on standard output, and shows on standard error what
there is to say of it: notes and failures.
-/

namespace RunTimings.Program

/-- What is shown with help and after a command line that gives no command. -/
def usage : String :=
  "Timing statistics from the logs of a run\n\n" ++
    "Usage:\n" ++
    "  steps DIR [--format text|json] [-o FILE]\n" ++
    "  cycles DATA [--peers DIR] [--asker NAME] [--cycles N] [--format text|json] [-o FILE]\n\n" ++
    "  -v, --verbose  more notes (twice: even more)\n" ++
    "  -q, --quiet    no notes\n" ++
    "  -h, --help     this text\n"

/-- The variable of the environment with the filter of the notes to be shown. -/
def filterVariable : String := "RUST_LOG"

/-- The wording of an error that the system has numbered. -/
def numbered (code : UInt32) (text : String) : FileError :=
  .other s!"{text} (os error {code})"

/-- The reason that the system gives for refusing an operation. -/
def fileError : IO.Error → FileError
  | .noFileOrDirectory _ code text => numbered code text
  | .permissionDenied _ code text => numbered code text
  | .inappropriateType _ code text => numbered code text
  | .invalidArgument _ code text => numbered code text
  | .resourceExhausted _ code text => numbered code text
  | .alreadyExists _ code text => numbered code text
  | .noSuchThing _ code text => numbered code text
  | .resourceBusy code text => numbered code text
  | .hardwareFault code text => numbered code text
  | .illegalOperation code text => numbered code text
  | .unsupportedOperation code text => numbered code text
  | .otherError code text => numbered code text
  | error => .other (toString error)

/-- An operation with its refusal as a value. -/
def attempt {α : Type} (operation : IO α) : IO (Except FileError α) := do
  match ← operation.toBaseIO with
  | .ok a => return .ok a
  | .error error => return .error (fileError error)

/-- The entries of a directory. -/
def listDirectory (path : String) : IO (Except FileError (List DirectoryEntry)) :=
  attempt do
    let entries ← ((← IO.currentDir) / path).readDir
    entries.toList.mapM fun entry => do
      let data ← attempt entry.path.symlinkMetadata
      let regular :=
        match data with
        | .ok data => data.type == .file
        | .error _ => false
      return ⟨entry.fileName.toUTF8.toList, regular⟩

/-- Reads on to the end of a file or to the first error. -/
partial def readOn (handle : IO.FS.Handle) (before : ByteArray) : IO LogContent := do
  match ← attempt (handle.read 65536) with
  | .error error => return ⟨before.toList, some error⟩
  | .ok more =>
    if more.isEmpty then return ⟨before.toList, none⟩
    readOn handle (before ++ more)

/-- What reading a file yields. -/
def loadFile (path : String) : IO (Except FileError LogContent) :=
  attempt do readOn (← IO.FS.Handle.mk path .read) .empty

/-- Writes a text to a file. -/
def saveFile (path text : String) : IO (Except FileError Unit) :=
  attempt do (← IO.FS.Handle.mk path .write).putStr text

/-- The operations on the real files and on standard output. -/
def system : System IO where
  list := listDirectory
  load := loadFile
  save := saveFile
  print := IO.print

/-- Shows on standard error how a run ended. Help is shown here as well, on standard output. -/
def display (finish : Finish) : IO Unit := do
  for note in finish.notes do IO.eprintln note.line
  match finish with
  | .refused => IO.eprint usage
  | .helped => IO.print usage
  | _ => IO.eprint finish.errorText

end RunTimings.Program

/-- The program ends with the exit code of the run. -/
def main (arguments : List String) : IO UInt32 := do
  let setting ← IO.getEnv RunTimings.Program.filterVariable
  let finish ← RunTimings.carryOut RunTimings.Program.system setting arguments
  RunTimings.Program.display finish
  return finish.exitCode.toUInt32
