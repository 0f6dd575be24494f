import RunTimings.FileSystem.Basic
import RunTimings.FileSystem.Error
import RunTimings.Text.Pieces

/-!
# Walks — where a path leads

A path is walked name by name. `.` and empty names stay where they are, which has to be a directory,
and `..` goes up. A directory that cannot be passed ends the walk, unless no name follows. A link is
replaced by the names of its target, and the walk goes on from the directory in which the link
stands; after forty links it is given up.

The last name of a path may be that of nothing: that is where a file could be made.

Main statement: a path leads to a directory, or to a name under which there is neither a directory
nor a link (`find_ends`).
-/

namespace RunTimings

open RunTimings.Text

/-- The byte between two names of a path. -/
def slash : UInt8 := 0x2f

/-- The name of a directory in itself. -/
def dot : FileName := [0x2e]

/-- The name in a directory of the one above it. -/
def dotDot : FileName := [0x2e, 0x2e]

/-- How long a name can be. -/
def nameLimit : Nat := 255

/-- How long a path has to be to be refused. -/
def pathLimit : Nat := 4096

/-- How many links are followed on a walk. -/
def linkLimit : Nat := 40

/-- The names of a path. Two slashes in a row count as one; a slash at the end is an empty name. -/
def namesOf (path : List UInt8) : List FileName :=
  let cut := pieces slash path
  cut.dropLast.filter (· ≠ []) ++ [cut.getLast?.getD []]

/-- The names of a path hold no slash. -/
theorem no_slash_of_mem_namesOf {path : List UInt8} {name : FileName} (h : name ∈ namesOf path) :
    slash ∉ name := by
  simp only [namesOf] at h
  rcases List.mem_append.mp h with front | last
  · exact not_mem_of_mem_pieces (List.dropLast_subset _ (List.mem_filter.mp front).1)
  · rw [List.mem_singleton.mp last]
    cases piece : (pieces slash path).getLast? with
    | none => exact List.not_mem_nil
    | some name => exact not_mem_of_mem_pieces (List.mem_of_getLast? piece)

/-- Where a walk on the names of a path starts. -/
def startOf (path : List UInt8) (here : Place) : Place :=
  if path.head? = some slash then [] else here

/-- Whether the file at the end of a path is only looked for or may be made. -/
inductive Purpose where
  | look
  | make
deriving DecidableEq, Repr

/-- Where a walk ends, and what is there. -/
structure Destination where
  place : Place
  node : Option Node
deriving DecidableEq, Repr

namespace FileSystem

/-- Walks on from a directory; a link is left to `follow`. A file cannot be made under a name that
ends in a slash. -/
def walkWith (fs : FileSystem) (purpose : Purpose)
    (follow : Place → List FileName → Except FileError Destination) :
    Place → List FileName → Except FileError Destination
  | here, [] => .ok ⟨here, some .directory⟩
  | here, name :: rest =>
    if name = [] then fs.walkWith purpose follow here rest
    else if fs.Denies here .pass then .error .permissionDenied
    else if name = dot then fs.walkWith purpose follow here rest
    else if name = dotDot then fs.walkWith purpose follow here.dropLast rest
    else if purpose = .make ∧ rest = [[]] then .error .isADirectory
    else if nameLimit < name.length then .error .nameTooLong
    else
      match fs.node? (here ++ [name]) with
      | some .directory => fs.walkWith purpose follow (here ++ [name]) rest
      | some (.link target) => follow (startOf target here) (namesOf target ++ rest)
      | none => if rest = [] then .ok ⟨here ++ [name], none⟩ else .error .notFound
      | some node => if rest = [] then .ok ⟨here ++ [name], some node⟩ else .error .notADirectory

/-- Walks on from a directory and follows so many links at most. -/
def walk (fs : FileSystem) (purpose : Purpose) :
    Nat → Place → List FileName → Except FileError Destination
  | 0 => fs.walkWith purpose fun _ _ => .error .tooManyLinks
  | links + 1 => fs.walkWith purpose (fs.walk purpose links)

/-- Where a path leads. -/
def find (fs : FileSystem) (purpose : Purpose) (path : List UInt8) :
    Except FileError Destination :=
  if 0 ∈ path then .error .nulInName
  else if path = [] then .error .notFound
  else if pathLimit ≤ path.length then .error .nameTooLong
  else fs.walk purpose linkLimit (startOf path fs.here) (namesOf path)

/-- A path that can be walked leads where its names lead. -/
theorem find_eq_ok_iff {fs : FileSystem} {purpose : Purpose} {path : List UInt8}
    {found : Destination} :
    fs.find purpose path = .ok found ↔
      (0 ∉ path ∧ path ≠ [] ∧ ¬ pathLimit ≤ path.length) ∧
        fs.walk purpose linkLimit (startOf path fs.here) (namesOf path) = .ok found := by
  rw [find]
  constructor
  · intro h
    split at h
    · cases h
    rename_i hnul
    split at h
    · cases h
    rename_i hempty
    split at h
    · cases h
    rename_i hshort
    exact ⟨⟨hnul, hempty, hshort⟩, h⟩
  · rintro ⟨⟨hnul, hempty, hshort⟩, h⟩
    rw [if_neg hnul, if_neg hempty, if_neg hshort, h]

/-- Where a walk can end: in a directory, or at a name that is not passed over and under which
there is neither a directory nor a link. -/
inductive Ends (fs : FileSystem) : Destination → Prop where
  | directory (place : Place) : Ends fs ⟨place, some .directory⟩
  | leaf {here : Place} {name : FileName} {node : Option Node} (nonempty : name ≠ [])
      (not_dot : name ≠ dot) (no_slash : slash ∉ name) (there : fs.node? (here ++ [name]) = node)
      (no_link : ∀ target, node ≠ some (.link target)) : Ends fs ⟨here ++ [name], node⟩

/-- If walks behind links end where a walk can end, so does every walk. -/
theorem walkWith_ends {fs : FileSystem} {purpose : Purpose}
    {follow : Place → List FileName → Except FileError Destination}
    (behind : ∀ here names found, (∀ name ∈ names, slash ∉ name) →
      follow here names = .ok found → fs.Ends found) :
    ∀ here names found, (∀ name ∈ names, slash ∉ name) →
      fs.walkWith purpose follow here names = .ok found → fs.Ends found := by
  intro here names
  induction names generalizing here with
  | nil =>
    intro found _ h
    cases h
    exact .directory here
  | cons name rest ih =>
    intro found unslashed h
    obtain ⟨unslashedName, unslashedRest⟩ := List.forall_mem_cons.mp unslashed
    rw [walkWith] at h
    split at h
    · exact ih _ _ unslashedRest h
    rename_i nonempty
    split at h
    · cases h
    split at h
    · exact ih _ _ unslashedRest h
    rename_i notDot
    split at h
    · exact ih _ _ unslashedRest h
    split at h
    · cases h
    split at h
    · cases h
    split at h
    · exact ih _ _ unslashedRest h
    · refine behind _ _ _ ?_ h
      intro other member
      rcases List.mem_append.mp member with target | later
      · exact no_slash_of_mem_namesOf target
      · exact unslashedRest other later
    · rename_i there
      split at h
      · cases h
        exact .leaf nonempty notDot unslashedName there (by simp)
      · cases h
    · rename_i node noLink there
      split at h
      · cases h
        exact .leaf nonempty notDot unslashedName there fun target same =>
          noLink target (Option.some.inj same)
      · cases h

theorem walk_ends {fs : FileSystem} {purpose : Purpose} (links : Nat) :
    ∀ here names found, (∀ name ∈ names, slash ∉ name) →
      fs.walk purpose links here names = .ok found → fs.Ends found := by
  induction links with
  | zero =>
    refine walkWith_ends fun _ _ _ _ h => ?_
    cases h
  | succ links ih => exact walkWith_ends ih

/-- A path leads to where a walk can end. -/
theorem find_ends {fs : FileSystem} {purpose : Purpose} {path : List UInt8} {found : Destination}
    (h : fs.find purpose path = .ok found) : fs.Ends found :=
  walk_ends linkLimit _ _ _ (fun _ => no_slash_of_mem_namesOf) (find_eq_ok_iff.mp h).2

/-- At the root there is nothing but the directory. -/
theorem Ends.place_ne_nil {fs : FileSystem} {found : Destination} (h : fs.Ends found)
    (hnode : found.node ≠ some .directory) : found.place ≠ [] := by
  cases h with
  | directory place => exact absurd rfl hnode
  | leaf => simp

end FileSystem

end RunTimings
