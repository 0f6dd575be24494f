import RunTimings.FileSystem.Access

/-!
# Layouts — a file system made entry by entry

A layout is a list of paths, each with what is to be there, in a directory that is empty at first
and in which relative paths start. The entries are made in order, and the directories on the way to
an entry are made where they are missing. Outside the directory there are some devices.
-/

namespace RunTimings

open RunTimings.Text

namespace FileSystem

/-- The directory of the devices. -/
def deviceDirectory : Place := [Utf8.encode "dev".toList]

/-- The directory of a layout. -/
def workDirectory : Place := [Utf8.encode "work".toList]

/-- Some devices, and an empty directory in which relative paths start. -/
def scratch : FileSystem where
  nodes :=
    [(deviceDirectory, .directory),
      (deviceDirectory ++ [Utf8.encode "null".toList], .device [] .nowhere),
      (deviceDirectory ++ [Utf8.encode "stdout".toList], .device [] .output),
      (deviceDirectory ++ [Utf8.encode "full".toList], .device [] .full),
      (workDirectory, .directory)]
  here := workDirectory

/-- Makes the directories of a row of names where there is nothing yet; `above` are the names passed
so far. -/
def makeDirectories (fs : FileSystem) (above : List FileName) : List FileName → FileSystem
  | [] => fs
  | name :: rest =>
    let reached := above ++ [name]
    match fs.walk .make linkLimit fs.here reached with
    | .ok ⟨place, none⟩ => (fs.put place .directory).makeDirectories reached rest
    | _ => fs.makeDirectories reached rest

/-- Makes one entry. A file is written through a link; a link or a device is made where there is
nothing yet. -/
def makeEntry (fs : FileSystem) (path : List UInt8) (node : Node) : FileSystem :=
  let names := (namesOf path).filter (· ≠ [])
  match node with
  | .directory => fs.makeDirectories [] names
  | .file bytes => ((fs.makeDirectories [] names.dropLast).save path bytes).files
  | .link _ | .device _ _ =>
    let made := fs.makeDirectories [] names.dropLast
    match made.walk .look linkLimit made.here names.dropLast, names.getLast? with
    | .ok ⟨place, some .directory⟩, some name =>
      if made.node? (place ++ [name]) = none then made.put (place ++ [name]) node else made
    | _, _ => made

/-- The file system of a layout. -/
def ofLayout (entries : List (List UInt8 × Node)) : FileSystem :=
  entries.foldl (fun fs (path, node) => fs.makeEntry path node) scratch

end FileSystem

end RunTimings
