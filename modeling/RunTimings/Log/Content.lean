import RunTimings.FileSystem.Error
import RunTimings.Marker.Recognise
import RunTimings.Text.Pieces
import RunTimings.Text.Utf8

/-!
# Log content — lines, and what is found on them

A log is cut into lines at the newline byte before anything is decoded, so broken bytes on one line
leave the others alone. A newline at the very end opens no further line. Lines are numbered from
one.

What matters of a log is its findings: the markers and the faults, each with its line number
(`findings`). Everything measured of a log is measured of this list.
-/

namespace RunTimings

open RunTimings.Text

/-- What an opened log yields: bytes, and the error that ends the reading, if it does not end with
the log. -/
structure LogContent where
  bytes : List UInt8
  fault : Option FileError := none
deriving DecidableEq, Repr

/-- The byte that ends a line. -/
def newline : UInt8 := 0x0a

/-- The lines of a byte sequence; after the last newline there is a line only if there are bytes. -/
def linesOf (bytes : List UInt8) : List (List UInt8) :=
  let cut := pieces newline bytes
  if cut.getLast? = some [] then cut.dropLast else cut

/-- The lines of a log in order. An error takes the place of the line in which the reading fails;
of that line nothing is kept. -/
def LogContent.lines (log : LogContent) : List (Except FileError (List UInt8)) :=
  match log.fault with
  | none => (linesOf log.bytes).map .ok
  | some error => (pieces newline log.bytes).dropLast.map .ok ++ [.error error]

/-- Why a line cannot be used. -/
inductive LineFault where
  | unreadable (error : FileError)
  | unusable (error : MarkerError)
deriving DecidableEq, Repr

/-- Something found on a line of a log. -/
structure Finding where
  line : Nat
  found : Except LineFault Marker

/-- What the bytes of a line report: broken bytes are replaced, and the blanks at the end do not
count. -/
def readLine (bytes : List UInt8) : Except MarkerError (Option Marker) :=
  classify (trimEnd (Utf8.decode bytes))

/-- What is found on a line; on most lines, nothing. -/
def findOn : Except FileError (List UInt8) × Nat → Option Finding
  | (.error error, line) => some ⟨line, .error (.unreadable error)⟩
  | (.ok bytes, line) =>
    match readLine bytes with
    | .error error => some ⟨line, .error (.unusable error)⟩
    | .ok none => none
    | .ok (some marker) => some ⟨line, .ok marker⟩

/-- All that is found in a log, in the order of its lines. -/
def LogContent.findings (log : LogContent) : List Finding :=
  (log.lines.zipIdx 1).filterMap findOn

end RunTimings
