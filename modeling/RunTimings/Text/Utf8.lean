/-!
# UTF-8 — bytes read as text, broken bytes kept apart

Bytes are read one at a time by a machine that knows which byte may come next. A byte that cannot
come next ends the character begun before it, which is then broken, and is read afresh: so a broken
part is as long as some beginning of a character, and no byte of a later character is drawn into it.

A reader of text sees one replacement character for each broken part (`decode`); a reader of names
keeps the broken bytes (`fragments`).
-/

namespace RunTimings.Text.Utf8

/-- A part of a byte sequence: a whole character, or bytes that begin a character and do not end it
(a single byte that begins none counts as such). -/
inductive Fragment where
  | char (c : Char)
  | broken (bytes : List UInt8)
deriving DecidableEq, Repr

/-- A character begun: its bytes so far (the last one first), how many are owed, which the next one
may be, and the value of the bits read. -/
structure Pending where
  seen : List UInt8
  owed : Nat
  low : UInt8
  high : UInt8
  bits : Nat
deriving DecidableEq, Repr

/-- What a byte means at the start of a character. -/
inductive Lead where
  | whole (c : Char)
  | more (pending : Pending)
  | wrong
deriving DecidableEq, Repr

/-- The meaning of a first byte; the bounds on the second byte leave out overlong forms, surrogates
and values beyond the last code point. -/
def lead (b : UInt8) : Lead :=
  if b < 0x80 then .whole (Char.ofNat b.toNat)
  else if b < 0xc2 then .wrong
  else if b < 0xe0 then .more ⟨[b], 1, 0x80, 0xbf, b.toNat - 0xc0⟩
  else if b < 0xf0 then
    .more ⟨[b], 2, if b = 0xe0 then 0xa0 else 0x80, if b = 0xed then 0x9f else 0xbf,
      b.toNat - 0xe0⟩
  else if b < 0xf5 then
    .more ⟨[b], 3, if b = 0xf0 then 0x90 else 0x80, if b = 0xf4 then 0x8f else 0xbf,
      b.toNat - 0xf0⟩
  else .wrong

/-- The value of the bits after one more byte, which carries six. -/
def Pending.shifted (p : Pending) (b : UInt8) : Nat :=
  p.bits * 64 + (b.toNat - 0x80)

/-- The parts of a byte sequence, read on from a character that may have been begun. -/
def fragmentsFrom : Option Pending → List UInt8 → List Fragment
  | none, [] => []
  | some p, [] => [.broken p.seen.reverse]
  | none, b :: rest =>
    match lead b with
    | .whole c => .char c :: fragmentsFrom none rest
    | .more p => fragmentsFrom (some p) rest
    | .wrong => .broken [b] :: fragmentsFrom none rest
  | some p, b :: rest =>
    if p.low ≤ b ∧ b ≤ p.high then
      if p.owed ≤ 1 then .char (Char.ofNat (p.shifted b)) :: fragmentsFrom none rest
      else fragmentsFrom (some ⟨b :: p.seen, p.owed - 1, 0x80, 0xbf, p.shifted b⟩) rest
    else
      .broken p.seen.reverse ::
        match lead b with
        | .whole c => .char c :: fragmentsFrom none rest
        | .more p => fragmentsFrom (some p) rest
        | .wrong => .broken [b] :: fragmentsFrom none rest

/-- The parts of a byte sequence. -/
def fragments (bytes : List UInt8) : List Fragment :=
  fragmentsFrom none bytes

/-- The character shown for a part; U+FFFD stands for a broken one. -/
def Fragment.shown : Fragment → Char
  | .char c => c
  | .broken _ => Char.ofNat 0xfffd

/-- Bytes read as text, with one replacement character for each broken part. -/
def decode (bytes : List UInt8) : List Char :=
  (fragments bytes).map Fragment.shown

/-- The character of a part that is whole. -/
def Fragment.whole? : Fragment → Option Char
  | .char c => some c
  | .broken _ => none

/-- Bytes read as text, if no part of them is broken. -/
def decode? (bytes : List UInt8) : Option (List Char) :=
  (fragments bytes).mapM Fragment.whole?

/-- The bytes of a text. -/
def encode (text : List Char) : List UInt8 :=
  text.flatMap String.utf8EncodeChar

/-- A byte that cannot come next is read as if nothing had been begun. -/
theorem fragmentsFrom_some_of_refused {p : Pending} {b : UInt8} (h : ¬ (p.low ≤ b ∧ b ≤ p.high))
    (rest : List UInt8) :
    fragmentsFrom (some p) (b :: rest) =
      .broken p.seen.reverse :: fragmentsFrom none (b :: rest) := by
  simp only [fragmentsFrom, if_neg h]

end RunTimings.Text.Utf8
