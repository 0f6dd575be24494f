/-!
# Datasets — the files of a run

The files that an analysis reads, by path: the asker's log and the participants' logs, in the order
in which they are read.
-/

namespace RunTimings

/-- The files of a step analysis. -/
structure StepDataset where
  asker : String
  participants : List String
deriving DecidableEq, Repr

/-- All files, the asker's first. -/
def StepDataset.paths (dataset : StepDataset) : List String :=
  dataset.asker :: dataset.participants

/-- The files of a cycle analysis, the directory in which the participants were looked for, and the
number of cycles of the run. -/
structure CycleDataset where
  asker : String
  participants : List String
  peerDirectory : String
  totalCycles : Nat
deriving DecidableEq, Repr

/-- All files, the participants' first. -/
def CycleDataset.paths (dataset : CycleDataset) : List String :=
  dataset.participants ++ [dataset.asker]

end RunTimings
