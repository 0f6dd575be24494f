import RunTimings.Journal
import RunTimings.Text.Pieces
import RunTimings.Text.WordChar

/-!
# Filters — what the environment says of notes

A filter is a row of directives with commas between them. A directive gives a level, and may limit
it to the notes under some name; a name alone stands for all levels. Of the directives that concern
a note the one with the longest name counts, and of several with one name the last. A filter without
a directive lets errors through.

Of names only those are told apart that concern all notes of the program and those that concern
none. Directives for spans, in brackets, are not read.
-/

namespace RunTimings

open RunTimings.Text

/-- The name under which the program takes all its notes. -/
def programName : String := "perflog_stats"

/-- The level that a word or a number stands for, if it does; `off` stands for none. -/
def Level.named (word : String) : Option (Option Level) :=
  match word.toLower with
  | "off" | "0" => some none
  | "error" | "1" => some (some .error)
  | "warn" | "2" => some (some .warn)
  | "info" | "3" => some (some .info)
  | "debug" | "4" => some (some .debug)
  | "trace" | "5" => some (some .trace)
  | _ => none

/-- A level for the notes under a name; under the empty name are all. -/
structure Directive where
  name : List Char
  level : Option Level
deriving DecidableEq, Repr

/-- Whether a text can be a name. -/
def isNoteName (text : List Char) : Bool :=
  text ≠ [] && text.all fun c => isWordChar c || c = ':' || c = '-'

/-- The directive that a text stands for, if it does. -/
def Directive.ofText (text : List Char) : Option Directive :=
  match pieces '=' text with
  | [word] =>
    match Level.named (String.ofList word) with
    | some level => some ⟨[], level⟩
    | none => if isNoteName word then some ⟨word, some .trace⟩ else none
  | [name, []] => if isNoteName name then some ⟨name, some .trace⟩ else none
  | [name, word] =>
    if isNoteName name then (Level.named (String.ofList word)).map (⟨name, ·⟩) else none
  | _ => none

/-- The directives of a filter, if all of it can be read. -/
def directivesOf (filter : String) : Option (List Directive) :=
  ((pieces ',' filter.toList).filter (· ≠ [])).mapM Directive.ofText

/-- Whether a directive concerns the notes of the program. -/
def Directive.concerns (directive : Directive) : Bool :=
  directive.name.isPrefixOf programName.toList

/-- The directive that counts, after one that has counted so far. -/
def Directive.over (directive : Directive) (best : Option Directive) : Option Directive :=
  match best with
  | some other => if other.name.length ≤ directive.name.length then some directive else some other
  | none => some directive

/-- The least important level that some directives let through. -/
def levelThrough (directives : List Directive) : Option Level :=
  if directives = [] then some .error
  else
    ((directives.filter Directive.concerns).foldl (fun best directive => directive.over best)
      none).bind (·.level)

/-- A directive that is a level, whatever the case of its letters. -/
theorem directivesOf_level {word : String} {level : Option Level}
    (hword : word.toList ≠ []) (hcomma : ',' ∉ word.toList) (hequals : '=' ∉ word.toList)
    (h : Level.named word = some level) : directivesOf word = some [⟨[], level⟩] := by
  rw [directivesOf, pieces_of_not_mem hcomma, List.filter_cons_of_pos (by simpa using hword)]
  simp [Directive.ofText, pieces_of_not_mem hequals, h]

-- the longest name counts, a name that concerns no notes does not, and a level has to be one
example : (directivesOf "other=trace,perflog_stats=Info,warn").map levelThrough
      = some (some .info) ∧
    (directivesOf "other").map levelThrough = some none ∧ directivesOf "warn=2=3" = none := by
  decide +kernel

end RunTimings
