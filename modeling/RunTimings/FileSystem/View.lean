import RunTimings.Log.Content

/-!
# File views — what an analysis can see of the files

An analysis lists directories and opens files, and does nothing else to them. Whatever answers these
two questions can be analysed: a real file system or one that is kept as data.
-/

namespace RunTimings

/-- An entry of a directory. Its name is any row of bytes; only what is itself a regular file counts
as one, and not a link to one. -/
structure DirectoryEntry where
  name : List UInt8
  regular : Bool
deriving DecidableEq, Repr

/-- The answers to all questions about files. -/
structure FileView where
  /-- The entries of a directory, in no particular order. -/
  list : String → Except FileError (List DirectoryEntry)
  /-- What reading the file at a path yields, if it can be opened. -/
  load : String → Except FileError LogContent

end RunTimings
