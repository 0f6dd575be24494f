import RunTimings.CommandLine.Command
import RunTimings.Number.Numeral
import RunTimings.Number.Range64

/-!
# Arguments — a command line read from left to right

A command line has flags, then a verb, `steps` or `cycles`, then the words and options of the verb,
among which flags may stand again. An option takes its value from the same argument or from the next
one, which then must not look like an option itself. After `--` all arguments are words.

A call for help counts as soon as it is met, even if the line is at fault further on.
-/

namespace RunTimings

/-- Why a command line gives no command. -/
inductive Halt where
  | usage
  | help
deriving DecidableEq, Repr

/-- What a command line can ask for. -/
inductive Verb where
  | steps
  | cycles
deriving DecidableEq, Repr

/-- The verb of a word. -/
def Verb.named : String → Option Verb
  | "steps" => some .steps
  | "cycles" => some .cycles
  | _ => none

/-- The options that take a value. -/
inductive ValueOption where
  | format
  | out
  | peers
  | asker
  | cycles
deriving DecidableEq, Repr

/-- The option of a long name. -/
def ValueOption.named : String → Option ValueOption
  | "format" => some .format
  | "out" => some .out
  | "peers" => some .peers
  | "asker" => some .asker
  | "cycles" => some .cycles
  | _ => none

/-- Whether an option may stand after a verb; before it, there is no verb yet. -/
def ValueOption.fits : Option Verb → ValueOption → Bool
  | none, _ => false
  | some .steps, .format | some .steps, .out => true
  | some .steps, _ => false
  | some .cycles, _ => true

/-- What has been given on one side of the verb. -/
structure Given where
  verbosity : Verbosity := {}
  directory : Option String := none
  format : Option Format := none
  out : Option String := none
  peers : Option String := none
  asker : Option String := none
  cycles : Option Nat := none
deriving DecidableEq, Repr

/-- A place for one value that is given once at most. -/
def once {α : Type} (value : α) : Option α → Except Halt (Option α)
  | none => .ok (some value)
  | some _ => .error .usage

/-- A value that has to be there. -/
def demand {α : Type} : Option α → Except Halt α
  | none => .error .usage
  | some a => .ok a

/-- A form by its name. -/
def Format.named : String → Option Format
  | "text" => some .text
  | "json" => some .json
  | _ => none

/-- A path, which cannot be empty. -/
def pathOf (word : String) : Option String :=
  if word = "" then none else some word

/-- A count: digits, with or without a plus sign, of a number that fits into 64 bits. -/
def countOf (word : String) : Option Nat :=
  let digits :=
    match word.toList with
    | '+' :: digits => digits
    | digits => digits
  if digits ≠ [] ∧ digits.all Char.isDigit ∧ Unsigned64 (Numeral.value digits) then
    some (Numeral.value digits)
  else none

namespace Given

/-- Takes the value of an option. -/
def withValue (given : Given) (word : String) : ValueOption → Except Halt Given
  | .format => do
    let format ← demand (Format.named word)
    return { given with format := ← once format given.format }
  | .out => do
    let path ← demand (pathOf word)
    return { given with out := ← once path given.out }
  | .peers => do
    let path ← demand (pathOf word)
    return { given with peers := ← once path given.peers }
  | .asker => do
    return { given with asker := ← once word given.asker }
  | .cycles => do
    let count ← demand (countOf word)
    return { given with cycles := ← once count given.cycles }

/-- Takes a word, which is the directory. -/
def withWord (given : Given) (word : String) : Except Halt Given := do
  let path ← demand (pathOf word)
  return { given with directory := ← once path given.directory }

/-- One more call for more notes. -/
def louder (given : Given) : Given :=
  { given with verbosity.verbose := given.verbosity.verbose + 1 }

/-- The call for fewer notes, which is made once at most. -/
def quieter (given : Given) : Except Halt Given :=
  if given.verbosity.quiet then .error .usage
  else .ok { given with verbosity.quiet := true }

/-- Whether both more and fewer notes are asked for. -/
def contradicts (given : Given) : Bool :=
  given.verbosity.quiet && 0 < given.verbosity.verbose

end Given

/-- A command line partly read: the option that still waits for its value, and whether only words
follow. -/
structure Reading where
  given : Given := {}
  awaiting : Option ValueOption := none
  wordsOnly : Bool := false
deriving DecidableEq, Repr

namespace Reading

/-- Reads the value of an option. -/
def value (reading : Reading) (option : ValueOption) (word : String) : Except Halt Reading := do
  return { reading with given := ← reading.given.withValue word option, awaiting := none }

/-- Reads an option of a long name with the value in the same argument, if there is one. -/
def long (verb : Option Verb) (reading : Reading) (name : String) (attached : Option String) :
    Except Halt Reading :=
  match name, attached with
  | "verbose", none => .ok { reading with given := reading.given.louder }
  | "quiet", none => do return { reading with given := ← reading.given.quieter }
  | "help", none => .error .help
  | _, _ => do
    let option ← demand ((ValueOption.named name).filter (ValueOption.fits verb))
    match attached with
    | some word => reading.value option word
    | none => return { reading with awaiting := some option }

/-- Reads a row of options of one letter; the rest of the row after one that takes a value is the
value, with or without an equals sign in front. -/
def letters (verb : Option Verb) : List Char → Reading → Except Halt Reading
  | [], reading => .ok reading
  | 'v' :: rest, reading => letters verb rest { reading with given := reading.given.louder }
  | 'q' :: rest, reading => do
    letters verb rest { reading with given := ← reading.given.quieter }
  | 'h' :: _, _ => .error .help
  | 'o' :: rest, reading => do
    let option ← demand ((some .out).filter (ValueOption.fits verb))
    match rest with
    | [] => return { reading with awaiting := some option }
    | '=' :: word => reading.value option (String.ofList word)
    | word => reading.value option (String.ofList word)
  | _ :: _, _ => .error .usage

/-- The value after an equals sign, if there is one. -/
def afterEquals (argument : List Char) : Option String :=
  match argument.dropWhile (· ≠ '=') with
  | [] => none
  | _ :: word => some (String.ofList word)

/-- Whether an argument looks like an option; a single hyphen does not. -/
def looksLikeOption (argument : String) : Bool :=
  match argument.toList with
  | '-' :: _ :: _ => true
  | _ => false

/-- Reads an argument that looks like an option, or `--`. -/
def option (verb : Option Verb) (reading : Reading) (argument : String) : Except Halt Reading :=
  match argument.toList with
  | '-' :: '-' :: [] => .ok { reading with wordsOnly := true }
  | '-' :: '-' :: rest =>
    reading.long verb (String.ofList (rest.takeWhile (· ≠ '='))) (afterEquals rest)
  | '-' :: rest => reading.letters verb rest
  | _ => .error .usage

/-- Reads an argument after the verb. -/
def argument (verb : Verb) (reading : Reading) (argument : String) : Except Halt Reading :=
  match reading.awaiting with
  | some option =>
    if looksLikeOption argument then .error .usage else reading.value option argument
  | none =>
    if !reading.wordsOnly && looksLikeOption argument then reading.option (some verb) argument
    else do return { reading with given := ← reading.given.withWord argument }

/-- What was given, if the line does not end too early or contradict itself. -/
def finish (reading : Reading) : Except Halt Given :=
  if reading.awaiting = none ∧ ¬ reading.given.contradicts then .ok reading.given
  else .error .usage

end Reading

/-- Whether some words name something on which there is help. -/
def isHelpTopic : List String → Bool
  | [] => true
  | [word] => word = "help" || (Verb.named word).isSome
  | _ => false

/-- Reads up to the verb; the arguments after it are left. -/
def readVerb (reading : Reading) : List String → Except Halt (Reading × Verb × List String)
  | [] => .error .usage
  | argument :: rest =>
    if reading.wordsOnly then .error .usage
    else if Reading.looksLikeOption argument then do
      readVerb (← reading.option none argument) rest
    else if argument = "help" then .error (if isHelpTopic rest then .help else .usage)
    else do return (reading, ← demand (Verb.named argument), rest)

/-- The request that is asked for; the directory has to be given. -/
def Given.request (given : Given) (verb : Verb) : Except Halt Request := do
  let directory ← demand given.directory
  match verb with
  | .steps => return .steps directory
  | .cycles =>
    return .cycles directory (given.peers.getD directory) (given.asker.getD "run_4_1.txt")
      (given.cycles.getD 100)

/-- The command of a command line. -/
def Command.ofArguments (arguments : List String) : Except Halt Command := do
  let (outer, verb, rest) ← readVerb {} arguments
  let inner ← rest.foldlM (Reading.argument verb) {}
  let given ← inner.finish
  let request ← given.request verb
  let before ← outer.finish
  return {
    request := request
    format := given.format.getD .text
    out := given.out
    verbosity := given.verbosity.under before.verbosity }

end RunTimings
