/-!
# The cycle report — waits and durations side by side
-/

namespace RunTimings

/-- One cycle: the mean wait of the participants, and how long it took by the asker's log. -/
structure CycleRow where
  cycle : Nat
  averageWait : Float
  duration : Int
deriving DecidableEq, Repr

/-- What the logs of a run tell of its cycles. -/
structure CycleReport where
  participants : Nat
  cycles : List CycleRow
deriving DecidableEq, Repr

/-- The report on cycles numbered from zero, as many as there are both averages and durations. -/
def CycleReport.ofMeasures (participants : Nat) (averages : List Float) (durations : List Int) :
    CycleReport :=
  ⟨participants,
    (averages.zip durations).zipIdx.map fun ((averageWait, duration), cycle) =>
      ⟨cycle, averageWait, duration⟩⟩

end RunTimings
