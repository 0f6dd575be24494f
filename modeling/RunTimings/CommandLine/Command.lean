import RunTimings.CommandLine.Filter

/-!
# Commands — what the program is asked to do
-/

namespace RunTimings

/-- The form of a report. -/
inductive Format where
  | text
  | json
deriving DecidableEq, Repr

/-- What to report on, and where its files are. -/
inductive Request where
  | steps (directory : String)
  | cycles (dataDirectory peerDirectory asker : String) (totalCycles : Nat)
deriving DecidableEq, Repr

/-- How talkative the program is to be: how often it was asked for more, and whether for less. -/
structure Verbosity where
  verbose : Nat := 0
  quiet : Bool := false
deriving DecidableEq, Repr

/-- What was asked for after the verb has the last word, but quiet stays quiet. -/
def Verbosity.under (inner outer : Verbosity) : Verbosity where
  verbose := if inner.verbose = 0 then outer.verbose else inner.verbose
  quiet := inner.quiet || outer.quiet

/-- The least important level of notes to be shown. -/
def Verbosity.level (v : Verbosity) : Level :=
  if v.quiet then .error
  else
    match v.verbose with
    | 0 => .warn
    | 1 => .info
    | _ => .debug

/-- A request, the form of its report and the file that is to take it, if there is one. -/
structure Command where
  request : Request
  format : Format
  out : Option String
  verbosity : Verbosity
deriving DecidableEq, Repr

/-- The level in force; a filter of the environment, if there is one and it can be read, takes the
place of what the command says. -/
def Command.level (command : Command) (setting : Option String) : Option Level :=
  match setting.bind directivesOf with
  | none => some command.verbosity.level
  | some directives => levelThrough directives

end RunTimings
