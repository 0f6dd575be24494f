import RunTimings.Dataset.Basic
import RunTimings.FileSystem.Path
import RunTimings.FileSystem.View
import RunTimings.Journal
import RunTimings.Text.Quoted

/-!
# Discovery — the files of a run told by their names

Only regular files directly inside a directory are considered, in the order of their names. A step
run has its asker in the first file whose name starts with `steps_`, and its participants in the
files with names of a single character. A cycle run has its participants in the files with names of
digits alone; its asker is named by the caller and not looked for.

Names are rows of bytes. One that is no text cannot be any of these and is left out with a note.
-/

namespace RunTimings

open RunTimings.Text

/-- The name of an entry as text, if it is one. -/
def DirectoryEntry.text? (entry : DirectoryEntry) : Option String :=
  (Utf8.decode? entry.name).map String.ofList

/-- The names of the regular files among some entries, in order. -/
def fileNames (entries : List DirectoryEntry) : List String :=
  ((entries.filter (·.regular)).filterMap DirectoryEntry.text?).mergeSort (· ≤ ·)

/-- What is noted of the regular files whose names are no text. -/
def skippedNotes (entries : List DirectoryEntry) : List String :=
  ((entries.filter (·.regular)).filter (·.text?.isNone)).map fun entry =>
    "skipping non-UTF-8 file name " ++ String.ofList (quotedName entry.name)

/-- The names of the regular files in a directory, in order. -/
def listFileNames (files : FileView) (directory : String) : Journaled (List String) := do
  let entries ← .ofExcept ((files.list directory).mapError (.unlisted directory))
  .note .debug (skippedNotes entries)
  return fileNames entries

/-- Whether a name is that of an asker's log of steps. -/
def isStepAsker (name : String) : Bool :=
  "steps_".toList.isPrefixOf name.toList

/-- Whether a name is that of a participant's log of steps: one character. -/
def isStepParticipant (name : String) : Bool :=
  name.length = 1

/-- Whether a name is that of a participant's log of cycles: digits, at least one. -/
def isCycleParticipant (name : String) : Bool :=
  name ≠ "" ∧ name.toList.all Char.isDigit

/-- The files of a step run among the names in a directory. -/
def StepDataset.ofNames (directory : String) (names : List String) : Except Failure StepDataset :=
  match names.find? isStepAsker with
  | none => .error (.noAsker directory)
  | some asker =>
    .ok ⟨joinPath directory asker, (names.filter isStepParticipant).map (joinPath directory)⟩

/-- The files of a cycle run, the participants among the names in a directory. -/
def CycleDataset.ofNames (dataDirectory peerDirectory asker : String) (totalCycles : Nat)
    (names : List String) : CycleDataset where
  asker := joinPath dataDirectory asker
  participants := (names.filter isCycleParticipant).map (joinPath peerDirectory)
  peerDirectory := peerDirectory
  totalCycles := totalCycles

/-- Looks for the files of a step run. -/
def StepDataset.discover (files : FileView) (directory : String) : Journaled StepDataset := do
  let names ← listFileNames files directory
  .ofExcept (ofNames directory names)

/-- Looks for the files of a cycle run, which has at least one cycle. -/
def CycleDataset.discover (files : FileView) (dataDirectory peerDirectory asker : String)
    (totalCycles : Nat) : Journaled CycleDataset := do
  if totalCycles = 0 then .fail .noCycles
  else
    let names ← listFileNames files peerDirectory
    return ofNames dataDirectory peerDirectory asker totalCycles names

end RunTimings
