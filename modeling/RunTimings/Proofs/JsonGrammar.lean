import RunTimings.Json.Value
import RunTimings.Number.FloatText
import RunTimings.Proofs.Numerals
import RunTimings.Proofs.ShortestDecimals

/-! # JSON texts — what a text has to be to say a value

    The grammar of JSON, with the value that each form says: numbers with an
    optional fraction and exponent, strings with their escapes, arrays and objects
    with commas between and never behind, and blanks around every value and name.
    A number without a fraction and an exponent is a whole number, any other the
    binary64 number that its decimal is read as.  Left out are the truth values,
    which no value here has, and pairs of escapes for a single character.

    * `NumberText`, `CharText`, `StringText` — numbers, characters and strings.
    * **`Spells`** — the grammar, as the values that texts say. -/

namespace RunTimings.Json

/-! ## Numbers -/

/-- The exponent of a number as it is written. -/
structure ExponentText where
  mark : Char
  sign : List Char
  digits : List Char
deriving DecidableEq

/-- The characters of an exponent. -/
def ExponentText.text (e : ExponentText) : List Char :=
  e.mark :: (e.sign ++ e.digits)

/-- The number that an exponent says. -/
def ExponentText.value (e : ExponentText) : ℤ :=
  if e.sign = ['-'] then -(Numeral.value e.digits : ℤ) else Numeral.value e.digits

/-- The letter of an exponent is large or small, and a sign may follow it. -/
def ExponentText.WellFormed (e : ExponentText) : Prop :=
  (e.mark = 'e' ∨ e.mark = 'E') ∧ (e.sign = [] ∨ e.sign = ['+'] ∨ e.sign = ['-'])
    ∧ IsNumeral e.digits

/-- A number as it is written.  There is a point exactly if there is a fraction. -/
structure NumberText where
  negative : Bool
  whole : List Char
  fraction : List Char
  exponent : Option ExponentText
deriving DecidableEq

/-- The characters of a fraction, its point included. -/
def pointText (fraction : List Char) : List Char :=
  if fraction = [] then [] else '.' :: fraction

/-- The characters of an exponent that may be missing. -/
def exponentText (exponent : Option ExponentText) : List Char :=
  exponent.elim [] ExponentText.text

/-- The characters of a number. -/
def NumberText.text (n : NumberText) : List Char :=
  signText n.negative ++ (n.whole ++ (pointText n.fraction ++ exponentText n.exponent))

/-- A number has digits in front of the point, and no zero in front of these. -/
def NumberText.WellFormed (n : NumberText) : Prop :=
  IsNumeral n.whole ∧ (n.whole.head? = some '0' → n.whole = ['0'])
    ∧ (∀ c ∈ n.fraction, c.isDigit = true) ∧ ∀ e ∈ n.exponent, e.WellFormed

/-- The place of the last digit of a number. -/
def NumberText.lastPlace (n : NumberText) : ℤ :=
  n.exponent.elim 0 ExponentText.value - n.fraction.length

/-- The number that is said: a whole one if there is neither fraction nor exponent. -/
def NumberText.value (n : NumberText) : Json :=
  if n.fraction = [] ∧ n.exponent = none then
    .int (if n.negative then -(Numeral.value n.whole : ℤ) else Numeral.value n.whole)
  else .real (readDecimal n.negative (Numeral.value (n.whole ++ n.fraction)) n.lastPlace)

/-! ## Strings -/

/-- The number that a hexadecimal digit stands for. -/
def hexDigit? (c : Char) : Option ℕ :=
  if '0' ≤ c ∧ c ≤ '9' then some (c.toNat - '0'.toNat)
  else if 'a' ≤ c ∧ c ≤ 'f' then some (c.toNat - 'a'.toNat + 10)
  else if 'A' ≤ c ∧ c ≤ 'F' then some (c.toNat - 'A'.toNat + 10)
  else none

/-- The number that a row of hexadecimal digits stands for. -/
def hexValue? (digits : List Char) : Option ℕ :=
  digits.foldlM (fun n c => (hexDigit? c).map (16 * n + ·)) 0

/-- What a letter stands for behind a backslash. -/
def unescaped? (letter : Char) : Option Char :=
  if letter = '\x22' ∨ letter = '\\' ∨ letter = '/' then some letter
  else if letter = 'b' then some '\x08'
  else if letter = 'f' then some '\x0c'
  else if letter = 'n' then some '\n'
  else if letter = 'r' then some '\r'
  else if letter = 't' then some '\t'
  else none

/-- The ways to write a character in a string: as itself, with a letter, or with its
    number. -/
inductive CharText : Char → List Char → Prop
  | plain {c : Char} (hquote : c ≠ '\x22') (hbackslash : c ≠ '\\') (hcontrol : 0x20 ≤ c.toNat) :
      CharText c [c]
  | letter {letter c : Char} (hletter : unescaped? letter = some c) : CharText c ['\\', letter]
  | number {digits : List Char} {code : ℕ} (hfour : digits.length = 4)
      (hcode : hexValue? digits = some code) (hvalid : code.isValidChar) :
      CharText (Char.ofNat code) ('\\' :: 'u' :: digits)

/-- The characters of a string, one after the other. -/
inductive StringText : List Char → List Char → Prop
  | nil : StringText [] []
  | cons {c : Char} {text piece pieces : List Char} (hpiece : CharText c piece)
      (hpieces : StringText text pieces) : StringText (c :: text) (piece ++ pieces)

/-! ## Values -/

/-- The characters that may stand around a value. -/
def isSpace (c : Char) : Bool :=
  c = ' ' || c = '\t' || c = '\n' || c = '\r'

/-- Texts one after the other with a comma between them. -/
def joined : List (List Char) → List Char
  | [] => []
  | first :: more => first ++ more.flatMap (',' :: ·)

/-- A name and its value in an object, as they are written. -/
structure Member where
  before : List Char
  name : String
  nameText : List Char
  after : List Char
  value : Json
  valueText : List Char

/-- The characters of a name and its value. -/
def Member.text (m : Member) : List Char :=
  m.before ++ '\x22' :: (m.nameText ++ '\x22' :: (m.after ++ ':' :: m.valueText))

/-- The name is a string, with blanks on either side. -/
structure Member.Named (m : Member) : Prop where
  before : ∀ c ∈ m.before, isSpace c = true
  name : StringText m.name.toList m.nameText
  after : ∀ c ∈ m.after, isSpace c = true

/-- **THE GRAMMAR**: a text says a value. -/
inductive Spells : Json → List Char → Prop
  | null : Spells .null "null".toList
  | number {n : NumberText} (h : n.WellFormed) : Spells n.value n.text
  | string {text : String} {pieces : List Char} (h : StringText text.toList pieces) :
      Spells (.str text) ('\x22' :: (pieces ++ ['\x22']))
  | array {items : List (Json × List Char)} {closing : List Char}
      (hitems : ∀ item ∈ items, Spells item.1 item.2) (hclosing : ∀ c ∈ closing, isSpace c = true) :
      Spells (.arr (items.map (·.1))) ('[' :: (joined (items.map (·.2)) ++ (closing ++ [']'])))
  | object {members : List Member} {closing : List Char} (hnamed : ∀ m ∈ members, m.Named)
      (hvalues : ∀ m ∈ members, Spells m.value m.valueText)
      (hclosing : ∀ c ∈ closing, isSpace c = true) :
      Spells (.obj (members.map fun m => (m.name, m.value)))
        ('\x7b' :: (joined (members.map Member.text) ++ (closing ++ ['\x7d'])))
  | before {value : Json} {text : List Char} {c : Char} (hspace : isSpace c = true)
      (h : Spells value text) : Spells value (c :: text)
  | after {value : Json} {text : List Char} {c : Char} (hspace : isSpace c = true)
      (h : Spells value text) : Spells value (text ++ [c])

/-- Any number of blanks may stand in front. -/
theorem Spells.beforeAll {value : Json} {text : List Char} (h : Spells value text)
    {spaces : List Char} (hspaces : ∀ c ∈ spaces, isSpace c = true) :
    Spells value (spaces ++ text) := by
  induction spaces with
  | nil => exact h
  | cons c spaces ih =>
      exact .before (hspaces c (List.mem_cons_self ..))
        (ih fun d hd => hspaces d (List.mem_cons_of_mem _ hd))

end RunTimings.Json
