import RunTimings.Log.Scan

/-!
# Cycle bounds — start and end of every cycle

The last start and the last end that a log gives for a cycle count, in whichever order they stand.
A timestamp that is not positive counts as none, even if an earlier one was.
-/

namespace RunTimings

/-- The last start and end seen of each of the configured cycles. -/
structure CycleBounds (cycles : Nat) where
  starts : Vector (Option Int) cycles
  finishes : Vector (Option Int) cycles
deriving DecidableEq, Repr

/-- No timestamps yet. -/
def CycleBounds.unset (cycles : Nat) : CycleBounds cycles :=
  ⟨Vector.replicate cycles none, Vector.replicate cycles none⟩

/-- Notes a start or an end. One of an unknown cycle is refused and changes nothing. -/
def CycleBounds.observe {cycles : Nat} (source : String) (line : Nat) (marker : Marker)
    (bounds : CycleBounds cycles) : Progress (CycleBounds cycles) Failure :=
  match marker with
  | .startCycle cycle timestamp =>
    if known : cycle < cycles then
      ⟨{ bounds with starts := bounds.starts.set cycle (some timestamp) known }, none⟩
    else ⟨bounds, some (.cycleOutOfRange source line cycle cycles)⟩
  | .endId cycle timestamp =>
    if known : cycle < cycles then
      ⟨{ bounds with finishes := bounds.finishes.set cycle (some timestamp) known }, none⟩
    else ⟨bounds, some (.cycleOutOfRange source line cycle cycles)⟩
  | .beginStep _ _ => ⟨bounds, none⟩
  | .endStep _ _ => ⟨bounds, none⟩
  | .waiting _ _ => ⟨bounds, none⟩

/-- A timestamp that counts. -/
def usable (timestamp : Option Int) : Option Int :=
  timestamp.filter (0 < ·)

/-- The time from the start to the end of a cycle; the start is asked for first. -/
def cycleDuration (source : String) (cycle : Nat) (start finish : Option Int) :
    Except Failure Int :=
  match usable start, usable finish with
  | none, _ => .error (.missingBound source cycle .start)
  | some _, none => .error (.missingBound source cycle .finish)
  | some start, some finish => .ok (finish - start)

/-- The durations of all cycles, or the first cycle that lacks a timestamp. -/
def CycleBounds.durations {cycles : Nat} (source : String) (bounds : CycleBounds cycles) :
    Except Failure (List Int) :=
  (List.finRange cycles).mapM fun (cycle : Fin cycles) =>
    cycleDuration source cycle (bounds.starts.get cycle) (bounds.finishes.get cycle)

/-- The durations of all cycles, from the asker's log. -/
def measureCycles (source : String) (cycles : Nat) (log : LogContent) :
    Except Failure (List Int) :=
  let bounded := scan (Failure.ofLine source) (CycleBounds.observe source) log.findings
    (CycleBounds.unset cycles)
  match bounded.stop with
  | some failure => .error failure
  | none => bounded.state.durations source

end RunTimings
