import RunTimings.Log.Scan
import RunTimings.Number.Mean
import RunTimings.Number.Range64

/-!
# Waits — added up per cycle, and averaged over participants

The waits of one participant are added up cycle by cycle; a total has to stay within 64 bits after
every single wait. The totals of several participants are added without bound, and only their means
are rounded.
-/

namespace RunTimings

/-- The waits of one participant, added up for each of the configured cycles. -/
structure WaitSums (cycles : Nat) where
  sums : Vector Int cycles
deriving DecidableEq, Repr

/-- No waits yet. -/
def WaitSums.zero (cycles : Nat) : WaitSums cycles :=
  ⟨Vector.replicate cycles 0⟩

/-- Adds a wait to its cycle. A wait of an unknown cycle, or one that takes the total out of range,
is refused and changes nothing. Only waits are of interest. -/
def WaitSums.observe {cycles : Nat} (source : String) (line : Nat) (marker : Marker)
    (waits : WaitSums cycles) : Progress (WaitSums cycles) Failure :=
  match marker with
  | .waiting cycle wait =>
    if known : cycle < cycles then
      let sum := waits.sums[cycle] + wait
      if Signed64 sum then ⟨⟨waits.sums.set cycle sum known⟩, none⟩
      else ⟨waits, some (.waitOverflow source line cycle)⟩
    else ⟨waits, some (.cycleOutOfRange source line cycle cycles)⟩
  | .beginStep _ _ => ⟨waits, none⟩
  | .endStep _ _ => ⟨waits, none⟩
  | .startCycle _ _ => ⟨waits, none⟩
  | .endId _ _ => ⟨waits, none⟩

/-- The waits of a participant's log, one total for each cycle. -/
def sumWaits (source : String) (cycles : Nat) (log : LogContent) : Except Failure (List Int) :=
  let summed := scan (Failure.ofLine source) (WaitSums.observe source) log.findings
    (WaitSums.zero cycles)
  match summed.stop with
  | some failure => .error failure
  | none => .ok summed.state.sums.toList

/-- Adds each wait to the total in its place. Totals beyond the waits stay as they are, and waits
beyond the totals do not count. -/
def addWaits : List Int → List Int → List Int
  | [], _ => []
  | totals, [] => totals
  | total :: totals, wait :: waits => (total + wait) :: addWaits totals waits

/-- The waits of all participants, added up cycle by cycle. -/
structure WaitTotals where
  totals : List Int
  participants : Nat
deriving DecidableEq, Repr

/-- The totals before the first participant. -/
def WaitTotals.zero (cycles : Nat) : WaitTotals :=
  ⟨List.replicate cycles 0, 0⟩

/-- One more participant. -/
def WaitTotals.add (sum : WaitTotals) (waits : List Int) : WaitTotals :=
  ⟨addWaits sum.totals waits, sum.participants + 1⟩

/-- The mean wait of each cycle over the participants, if there are any. -/
def WaitTotals.averages (sum : WaitTotals) : Option (List Float) :=
  if sum.participants = 0 then none
  else some (sum.totals.map fun total => quotient total sum.participants)

end RunTimings
