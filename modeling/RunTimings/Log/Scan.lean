import RunTimings.Log.Content
import RunTimings.Failure

/-!
# Scanning — a visitor led through the findings of a log

A visitor is handed one marker after the other, each with its line number, and may stop the scan. A
line that cannot be used stops it as well. Whatever the outcome, the state that the visitor has
reached is not lost.

Main statement: a scan of one list of findings after another is a scan of the second from where the
first ends, unless the first stops (`scan_append`).
-/

namespace RunTimings

/-- Where a visitor stands, and the reason to stop, if it has one. -/
structure Progress (σ ε : Type) where
  state : σ
  stop : Option ε := none
deriving DecidableEq, Repr

/-- Going on from where a visitor stands, unless it has stopped. -/
def Progress.andThen {σ ε : Type} (p : Progress σ ε) (next : σ → Progress σ ε) : Progress σ ε :=
  match p.stop with
  | none => next p.state
  | some _ => p

variable {σ ε : Type}

/-- Leads a visitor through findings until it stops or a line cannot be used. -/
def scan (refuse : Nat → LineFault → ε) (visit : Nat → Marker → σ → Progress σ ε) :
    List Finding → σ → Progress σ ε
  | [], state => ⟨state, none⟩
  | ⟨line, .error fault⟩ :: _, state => ⟨state, some (refuse line fault)⟩
  | ⟨line, .ok marker⟩ :: rest, state =>
    match visit line marker state with
    | ⟨reached, none⟩ => scan refuse visit rest reached
    | ⟨reached, some reason⟩ => ⟨reached, some reason⟩

theorem scan_append (refuse : Nat → LineFault → ε) (visit : Nat → Marker → σ → Progress σ ε)
    (before after : List Finding) (state : σ) :
    scan refuse visit (before ++ after) state =
      (scan refuse visit before state).andThen (scan refuse visit after) := by
  induction before generalizing state with
  | nil => rfl
  | cons finding rest ih =>
    obtain ⟨line, fault | marker⟩ := finding
    · rfl
    · rw [List.cons_append, scan, scan]
      cases visited : visit line marker state with
      | mk reached stop =>
        cases stop with
        | none => exact ih reached
        | some reason => rfl

/-- The failure of an analysis whose log has a line that cannot be used. -/
def Failure.ofLine (source : String) (line : Nat) : LineFault → Failure
  | .unreadable error => .unread source line error
  | .unusable error => .ofMarker source line error

end RunTimings
