import RunTimings.FileSystem.View
import RunTimings.FileSystem.Walk

/-!
# Access — listing, reading and writing in a file system

A directory can be opened like a file, but reading it fails at once. Writing replaces all that a
file holds, as far as there is room; a file that is not there is made, but no directory for it. A
device takes what is written to it, or refuses it, and stays as it is.

Main statement: writing changes the one place to which the path leads, and nothing else
(`node?_save`).
-/

namespace RunTimings

open RunTimings.Text

namespace FileSystem

/-- What is at the end of a path. -/
def lookAt (fs : FileSystem) (path : List UInt8) : Except FileError Destination := do
  let found ← fs.find .look path
  if found.node = none then .error .notFound else .ok found

/-- The entry of a place in a directory, if it is one. -/
def entryIn (directory : Place) : Place × Node → Option DirectoryEntry
  | (place, node) =>
    if place ≠ [] ∧ place.dropLast = directory then
      place.getLast?.map fun name => ⟨name, node matches .file _⟩
    else none

/-- The entries of a directory. -/
def list (fs : FileSystem) (path : List UInt8) : Except FileError (List DirectoryEntry) := do
  let found ← fs.lookAt path
  if found.node ≠ some .directory then .error .notADirectory
  else if fs.Denies found.place .read then .error .permissionDenied
  else .ok (fs.nodes.filterMap (entryIn found.place))

/-- What reading on at a place yields, up to where it breaks off. -/
def readOn (fs : FileSystem) (place : Place) (bytes : List UInt8) : LogContent :=
  match fs.faults.lookup place with
  | none => ⟨bytes, none⟩
  | some (count, error) => ⟨bytes.take count, some error⟩

/-- What reading the file at a path yields. -/
def load (fs : FileSystem) (path : List UInt8) : Except FileError LogContent := do
  let found ← fs.lookAt path
  if fs.Denies found.place .read then .error .permissionDenied
  else
    match found.node with
    | some (.file bytes) => .ok (fs.readOn found.place bytes)
    | some (.device input _) => .ok (fs.readOn found.place input)
    | _ => .ok ⟨[], some .isADirectory⟩

/-- What comes of writing: whether all of it was written, whether it was shown on standard output,
and the files afterwards. -/
structure Written where
  outcome : Except FileError Unit
  shown : Bool := false
  files : FileSystem

/-- Nothing is written. -/
def refuse (fs : FileSystem) (error : FileError) : Written where
  outcome := .error error
  files := fs

/-- Fills the file at a place, as far as there is room; what it held before makes room first. -/
def fill (fs : FileSystem) (place : Place) (held : Nat) (bytes : List UInt8) : Written :=
  match fs.room with
  | none => { outcome := .ok (), files := fs.put place (.file bytes) }
  | some room =>
    if bytes.length ≤ room + held then
      { outcome := .ok ()
        files := { fs.put place (.file bytes) with room := some (room + held - bytes.length) } }
    else
      { outcome := .error .noSpace
        files := { fs.put place (.file (bytes.take (room + held))) with room := some 0 } }

/-- Hands bytes to a device. -/
def feed (fs : FileSystem) (bytes : List UInt8) : Sink → Written
  | .nowhere => { outcome := .ok (), files := fs }
  | .output => { outcome := .ok (), shown := true, files := fs }
  | .full => if bytes = [] then { outcome := .ok (), files := fs } else fs.refuse .noSpace

/-- Where writing must not be denied: a file that is not there is made in its directory. -/
def writing (found : Destination) : Place :=
  if found.node = none then found.place.dropLast else found.place

/-- Writes to where a path has led. -/
def writeAt (fs : FileSystem) (found : Destination) (bytes : List UInt8) : Written :=
  if found.node = some .directory then fs.refuse .isADirectory
  else if fs.Denies (writing found) .write then fs.refuse .permissionDenied
  else
    match found.node with
    | some (.device _ sink) => fs.feed bytes sink
    | some (.file held) => fs.fill found.place held.length bytes
    | _ => fs.fill found.place 0 bytes

/-- Writes a file. -/
def save (fs : FileSystem) (path bytes : List UInt8) : Written :=
  match fs.find .make path with
  | .error error => fs.refuse error
  | .ok found => fs.writeAt found bytes

theorem node?_fill {fs : FileSystem} {place other : Place} (hroot : place ≠ [])
    (hother : other ≠ place) (held : Nat) (bytes : List UInt8) :
    (fs.fill place held bytes).files.node? other = fs.node? other := by
  have hput (node : Node) : (fs.put place node).node? other = fs.node? other := by
    rw [node?_put hroot, if_neg hother]
  rw [fill]
  split
  · exact hput _
  split
  · exact hput _
  · exact hput _

/-- A device stays as it is, and so does everything else. -/
theorem files_feed (fs : FileSystem) (bytes : List UInt8) (sink : Sink) :
    (fs.feed bytes sink).files = fs := by
  cases sink with
  | nowhere => rfl
  | output => rfl
  | full =>
    rw [feed]
    split
    · rfl
    · rfl

/-- Writing changes nothing but what is at the place to which the path leads. -/
theorem node?_save {fs : FileSystem} {path : List UInt8} {other : Place}
    (hother : ∀ found, fs.find .make path = .ok found → other ≠ found.place) (bytes : List UInt8) :
    (fs.save path bytes).files.node? other = fs.node? other := by
  rw [save]
  split
  · rfl
  rename_i found hfound
  rw [writeAt]
  split
  · rfl
  rename_i hnode
  split
  · rfl
  split
  · rw [files_feed]
  all_goals
    exact node?_fill ((find_ends hfound).place_ne_nil hnode) (hother found hfound) _ _

/-- What an analysis can see of a file system. -/
def view (fs : FileSystem) : FileView where
  list path := fs.list (Utf8.encode path.toList)
  load path := fs.load (Utf8.encode path.toList)

end FileSystem

end RunTimings
