import RunTimings.Json.Value
import RunTimings.Number.FloatText

/-!
# JSON text — one item or field to a line

A list or an object that is not empty takes a line for each item, two spaces further in than itself.
In a string only the quote, the backslash and the control characters below the space are escaped.
Binary64 numbers have the fewest digits and always a point or an exponent; numbers that are not
finite have no JSON form and become null.
-/

namespace RunTimings.Json

/-- How documents write numbers: plain from `0.00001` to sixteen digits before the point, with a
sign in every exponent; ties go to the even digit. -/
def floatStyle : FloatStyle :=
  ⟨.toEven, -5, 15, ['+']⟩

/-- A binary64 number, or null. -/
def realText (x : Float) : List Char :=
  match Binary64.ofFloat x with
  | .finite _ _ _ => floatStyle.text x
  | _ => "null".toList

/-- A character inside a string. -/
def escaped (c : Char) : List Char :=
  if c = '\x22' then ['\\', '\x22']
  else if c = '\\' then ['\\', '\\']
  else if c = '\x08' then ['\\', 'b']
  else if c = '\x0c' then ['\\', 'f']
  else if c = '\n' then ['\\', 'n']
  else if c = '\r' then ['\\', 'r']
  else if c = '\t' then ['\\', 't']
  else if c.toNat < 0x20 then
    ['\\', 'u', '0', '0', Nat.digitChar (c.toNat / 16), Nat.digitChar (c.toNat % 16)]
  else [c]

/-- A string in quotes. -/
def quoted (text : String) : List Char :=
  '\x22' :: (text.toList.flatMap escaped ++ ['\x22'])

/-- The start of a line at some depth. -/
def margin (depth : Nat) : List Char :=
  List.replicate (2 * depth) ' '

mutual

/-- The text of a value at some depth; its first line has no margin. -/
def print (depth : Nat) : Json → List Char
  | .null => "null".toList
  | .int n => Numeral.ofInt n
  | .real x => realText x
  | .str text => quoted text
  | .arr [] => "[]".toList
  | .arr (item :: items) =>
    '[' :: '\n' :: (margin (depth + 1) ++ print (depth + 1) item ++ printItems (depth + 1) items ++
      '\n' :: (margin depth ++ [']']))
  | .obj [] => ['\x7b', '\x7d']
  | .obj ((name, value) :: fields) =>
    '\x7b' :: '\n' :: (margin (depth + 1) ++ quoted name ++ ':' :: ' ' :: print (depth + 1) value ++
      printFields (depth + 1) fields ++ '\n' :: (margin depth ++ ['\x7d']))

/-- The items after the first. -/
def printItems (depth : Nat) : List Json → List Char
  | [] => []
  | item :: items =>
    ',' :: '\n' :: (margin depth ++ print depth item ++ printItems depth items)

/-- The fields after the first. -/
def printFields (depth : Nat) : List (String × Json) → List Char
  | [] => []
  | (name, value) :: fields =>
    ',' :: '\n' :: (margin depth ++ quoted name ++ ':' :: ' ' :: print depth value ++
      printFields depth fields)

end

/-- A value as a document: its text and a line feed. -/
def document (value : Json) : String :=
  String.ofList (print 0 value ++ ['\n'])

end RunTimings.Json
