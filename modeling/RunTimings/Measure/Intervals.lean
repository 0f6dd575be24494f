import RunTimings.Log.Scan
import RunTimings.Measure.Diagnostic
import RunTimings.Measure.PerStep
import RunTimings.Number.Mean

/-!
# Step intervals — begin and end markers paired

Each step has at most one open interval. A begin opens one, in place of one that is still open; an
end closes the open one and gives a sample, the time from begin to end, even if that is negative.
Steps do not disturb each other, so a tracker is one small machine for each step (`StepTrack`) and
one list of diagnostics for all.
-/

namespace RunTimings

/-- The pairing of one step: when its open interval began, and its samples, the latest first. -/
structure StepTrack where
  opened : Option Int := none
  latestFirst : List Int := []
deriving DecidableEq, Repr

/-- The samples in the order in which their intervals ended. -/
def StepTrack.samples (track : StepTrack) : List Int :=
  track.latestFirst.reverse

/-- A begin marker opens an interval; one that is open is given up. -/
def StepTrack.onBegin (timestamp : Int) (track : StepTrack) : StepTrack × Option Problem :=
  ({ track with opened := some timestamp }, track.opened.map .beginWhileOpen)

/-- An end marker closes the open interval and takes the sample. -/
def StepTrack.onEnd (timestamp : Int) (track : StepTrack) : StepTrack × Option Problem :=
  match track.opened with
  | none => (track, some .endWithoutBegin)
  | some start =>
    (⟨none, (timestamp - start) :: track.latestFirst⟩,
      if timestamp - start < 0 then some (.negativeDuration (timestamp - start)) else none)

/-- The pairing of all steps of one log, and what was odd so far, the latest first. -/
structure StepTracker where
  source : String
  tracks : PerStep StepTrack := PerStep.ofFn fun _ => {}
  latestFirst : List Diagnostic := []
deriving DecidableEq, Repr

/-- What was odd, in the order of the log. -/
def StepTracker.diagnostics (tracker : StepTracker) : List Diagnostic :=
  tracker.latestFirst.reverse

/-- One step's pairing changes, and its problem, if it has one, is put on record. -/
def StepTracker.change (tracker : StepTracker) (line : Nat) (step : StepIndex)
    (onTrack : StepTrack → StepTrack × Option Problem) : StepTracker :=
  let (track, problem) := onTrack (tracker.tracks.get step)
  { tracker with
    tracks := tracker.tracks.set step.val track step.isLt
    latestFirst :=
      (problem.map (Diagnostic.mk tracker.source line step)).toList ++ tracker.latestFirst }

/-- A change reaches the track of its own step and no other. -/
theorem StepTracker.get_change (tracker : StepTracker) (line : Nat) (changed step : StepIndex)
    (onTrack : StepTrack → StepTrack × Option Problem) :
    (tracker.change line changed onTrack).tracks.get step =
      if changed = step then (onTrack (tracker.tracks.get step)).1
      else tracker.tracks.get step := by
  show (Vector.set tracker.tracks changed.val
    (onTrack (tracker.tracks.get changed)).1 changed.isLt).get step = _
  rw [PerStep.get_set]
  by_cases h : changed = step
  · rw [if_pos h, if_pos h, h]
  · rw [if_neg h, if_neg h]

/-- A change puts its problem behind all that is on record. -/
theorem StepTracker.diagnostics_change (tracker : StepTracker) (line : Nat) (step : StepIndex)
    (onTrack : StepTrack → StepTrack × Option Problem) :
    (tracker.change line step onTrack).diagnostics = tracker.diagnostics ++
      ((onTrack (tracker.tracks.get step)).2.map
        (Diagnostic.mk tracker.source line step)).toList := by
  show (((onTrack (tracker.tracks.get step)).2.map
    (Diagnostic.mk tracker.source line step)).toList ++ tracker.latestFirst).reverse = _
  rw [List.reverse_append]
  cases (onTrack (tracker.tracks.get step)).2 with
  | none => rfl
  | some problem => rfl

/-- Takes notice of a marker. Cycle markers are none of its business. -/
def StepTracker.observe (line : Nat) (marker : Marker) (tracker : StepTracker) : StepTracker :=
  match marker with
  | .beginStep step timestamp => tracker.change line step (StepTrack.onBegin timestamp)
  | .endStep step timestamp => tracker.change line step (StepTrack.onEnd timestamp)
  | .startCycle _ _ => tracker
  | .endId _ _ => tracker
  | .waiting _ _ => tracker

/-- The steps whose last interval is still open, in order, with the time since when. -/
def StepTracker.neverEnded (tracker : StepTracker) : List (StepIndex × Int) :=
  PerStep.steps.filterMap fun step =>
    (tracker.tracks.get step).opened.map fun start => (step, start)

/-- What a log tells of the steps: the mean of each step's samples (none if it has no sample), how
many samples that are, and what was odd. -/
structure StepSummary where
  source : String
  means : PerStep (Option Float)
  sampleCounts : PerStep Nat
  diagnostics : List Diagnostic
deriving DecidableEq, Repr

/-- The result of the pairing. Intervals that are still open give no sample. -/
def StepTracker.summary (tracker : StepTracker) : StepSummary where
  source := tracker.source
  means := tracker.tracks.map fun track => mean track.samples
  sampleCounts := tracker.tracks.map fun track => track.samples.length
  diagnostics := tracker.diagnostics

/-- The pairing of a log's step markers. -/
def trackSteps (source : String) (log : LogContent) : Progress StepTracker Failure :=
  scan (Failure.ofLine source) (fun line marker tracker => ⟨tracker.observe line marker, none⟩)
    log.findings { source }

/-- What a log tells of the steps, unless one of its lines cannot be used. -/
def summariseSteps (source : String) (log : LogContent) : Except Failure StepSummary :=
  let tracked := trackSteps source log
  match tracked.stop with
  | some failure => .error failure
  | none => .ok tracked.state.summary

end RunTimings
