import RunTimings.Text.Escape
import RunTimings.Text.Unprinted
import RunTimings.Text.Utf8

/-!
# Quoted names — raw bytes made visible

A name is shown between quotes so that it can be told from its looks: the quote, the backslash and
some controls have short escapes, other characters without a shape are written by number, and bytes
that belong to no character stand there in hexadecimal.
-/

namespace RunTimings.Text

/-- A character inside a quoted name. -/
def quotedChar (c : Char) : List Char :=
  if c = '\x00' then ['\\', '0']
  else if c = '\t' then ['\\', 't']
  else if c = '\n' then ['\\', 'n']
  else if c = '\r' then ['\\', 'r']
  else if c = '\x22' ∨ c = '\\' then ['\\', c]
  else if isUnprinted c then codePointEscape c
  else [c]

/-- A byte that belongs to no character: two capital hexadecimal digits. -/
def quotedByte (b : UInt8) : List Char :=
  ['\\', 'x', (Nat.digitChar (b.toNat / 16)).toUpper, (Nat.digitChar (b.toNat % 16)).toUpper]

/-- A part of a name inside the quotes. -/
def quotedFragment : Utf8.Fragment → List Char
  | .char c => quotedChar c
  | .broken bytes => bytes.flatMap quotedByte

/-- A name in quotes. -/
def quotedName (name : List UInt8) : List Char :=
  '\x22' :: ((Utf8.fragments name).flatMap quotedFragment ++ ['\x22'])

end RunTimings.Text
