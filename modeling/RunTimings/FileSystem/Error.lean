/-!
# File errors — why the system refuses a file operation

The causes that opening, reading, listing and writing can meet, each with the wording in which it is
reported: the system's text and its number.
-/

namespace RunTimings

/-- Why a file operation is refused. -/
inductive FileError where
  | notFound
  | notADirectory
  | isADirectory
  | tooManyLinks
  | nameTooLong
  | nulInName
  | permissionDenied
  | noSpace
  | other (text : String)
deriving DecidableEq, Repr

/-- The wording of a refusal. -/
def FileError.message : FileError → String
  | .notFound => "No such file or directory (os error 2)"
  | .notADirectory => "Not a directory (os error 20)"
  | .isADirectory => "Is a directory (os error 21)"
  | .tooManyLinks => "Too many levels of symbolic links (os error 40)"
  | .nameTooLong => "File name too long (os error 36)"
  | .nulInName => "file name contained an unexpected NUL byte"
  | .permissionDenied => "Permission denied (os error 13)"
  | .noSpace => "No space left on device (os error 28)"
  | .other text => text

end RunTimings
