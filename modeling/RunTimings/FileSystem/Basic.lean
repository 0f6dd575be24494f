import RunTimings.FileSystem.Error

/-!
# File systems — kept as data

A file system says for each place what is there. A place is the row of names that leads to it from
the root, which is always a directory. Names are rows of bytes.

It is the file system as one process meets it: with the directory in which its relative paths start,
with what it is denied, with the places at which reading breaks off, and with the room there is to
write. A device is read like a file, and what is written to it is not there to be read: it is
forgotten, shown on standard output, or refused. Devices that never end when they are read are left
out, as no analysis of them ends.

Main statement: putting something at a place changes what is there and nothing else (`node?_put`).
-/

namespace RunTimings

/-- A name inside a directory. -/
abbrev FileName := List UInt8

/-- A place: the names on the way from the root. -/
abbrev Place := List FileName

/-- Where a device puts what is written to it. -/
inductive Sink where
  | nowhere
  | output
  | full
deriving DecidableEq, Repr

/-- What can be at a place. The target of a link is a path. -/
inductive Node where
  | file (bytes : List UInt8)
  | directory
  | link (target : List UInt8)
  | device (input : List UInt8) (sink : Sink)
deriving DecidableEq, Repr

/-- What can be denied at a place. Listing a directory is reading it, making something in it is
writing to it, and going through it to a name in it is passing it. -/
inductive Right where
  | read
  | write
  | pass
deriving DecidableEq, Repr

/-- What is at which place, in the order in which it came there, and what a process can do with
it. -/
structure FileSystem where
  nodes : List (Place × Node)
  /-- Where relative paths start. -/
  here : Place := []
  denied : List (Place × Right) := []
  /-- Where reading breaks off after so many bytes, and the error with which it does. -/
  faults : List (Place × Nat × FileError) := []
  /-- How many more bytes can be written, if there is an end to it. -/
  room : Option Nat := none
deriving DecidableEq, Repr

namespace FileSystem

/-- Something is denied at a place. -/
def Denies (fs : FileSystem) (place : Place) (right : Right) : Prop :=
  (place, right) ∈ fs.denied

instance (fs : FileSystem) (place : Place) (right : Right) : Decidable (fs.Denies place right) :=
  inferInstanceAs (Decidable (_ ∈ _))

/-- What is at a place, if there is anything. -/
def node? (fs : FileSystem) (place : Place) : Option Node :=
  if place = [] then some .directory else fs.nodes.lookup place

/-- A list of nodes with one of them replaced, or with one more at its end. -/
def overwrite (place : Place) (node : Node) : List (Place × Node) → List (Place × Node)
  | [] => [(place, node)]
  | (other, kept) :: rest =>
    if place = other then (place, node) :: rest else (other, kept) :: overwrite place node rest

/-- Puts something at a place, whatever is there. -/
def put (place : Place) (node : Node) (fs : FileSystem) : FileSystem :=
  { fs with nodes := overwrite place node fs.nodes }

theorem lookup_overwrite (place other : Place) (node : Node) (nodes : List (Place × Node)) :
    (overwrite place node nodes).lookup other =
      if other = place then some node else nodes.lookup other := by
  induction nodes with
  | nil =>
    rw [overwrite, List.lookup_cons, List.lookup_nil]
    grind
  | cons entry rest ih =>
    obtain ⟨first, kept⟩ := entry
    rw [overwrite, List.lookup_cons]
    split
    · rw [List.lookup_cons]
      grind
    · rw [List.lookup_cons, ih]
      grind

/-- Putting something at a place leaves all other places as they are. -/
theorem node?_put {place : Place} (h : place ≠ []) (other : Place) (node : Node)
    (fs : FileSystem) :
    (fs.put place node).node? other = if other = place then some node else fs.node? other := by
  rw [node?, node?, put, lookup_overwrite]
  by_cases root : other = []
  · simp [root, h.symm]
  · simp [root]

end FileSystem

end RunTimings
