import Mathlib.Algebra.Ring.Int.Defs
import Mathlib.Data.List.Induction
import RunTimings.Measure.Intervals

/-! # Step markers and their past — what an interval tracker remembers

    A tracker is a small mutable machine; what it should report is said of the
    whole history: an end closes the interval of the NEAREST earlier marker of
    its step, if that marker is a begin.  The route from one to the other:

    * `withPast` puts the events that precede an event beside it, so a rule on
      "this event, after those" reads off a list;
    * `openSince`, `sampleOf` and `diagnosticOf` are the rules, stated on the
      past alone, with no slots and no state;
    * `Paired` says that a tracker's slots, samples and diagnostics are what
      the rules say of the events so far; one event keeps it (`Paired.observe`)
      and so does a run (`paired_after`). -/

namespace RunTimings

/-! ## Events with their past -/

/-- Every event of a sequence, with the events that precede it. -/
def withPast {α : Type} (events : List α) : List (List α × α) :=
  events.mapIdx fun place event => (events.take place, event)

/-- The last event has all others before it, and the others keep their past. -/
theorem withPast_concat {α : Type} (past : List α) (event : α) :
    withPast (past ++ [event]) = withPast past ++ [(past, event)] := by
  simp only [withPast]
  rw [List.mapIdx_concat, List.take_left]
  congr 1
  -- what an earlier event has before it does not reach into the last one
  refine List.ext_getElem (by simp) ?_
  intro place h _
  have hplace : place ≤ past.length := by
    rw [List.length_mapIdx] at h
    omega
  rw [List.getElem_mapIdx, List.getElem_mapIdx, List.take_append_of_le_length hplace]

/-- Whether a marker begins or ends the given step. -/
def Marker.concerns (step : StepIndex) : Marker → Bool
  | .beginStep s _ => s = step
  | .endStep s _ => s = step
  | .startCycle _ _ => false
  | .endId _ _ => false
  | .waiting _ _ => false

/-- The nearest marker of a step among the events so far. -/
def nearest (step : StepIndex) (past : List (Nat × Marker)) : Option Marker :=
  ((past.map Prod.snd).filter (Marker.concerns step)).getLast?

theorem nearest_concat (step : StepIndex) (past : List (Nat × Marker)) (line : Nat)
    (marker : Marker) :
    nearest step (past ++ [(line, marker)])
      = if marker.concerns step then some marker else nearest step past := by
  simp only [nearest]
  rw [List.map_append, List.filter_append]
  by_cases h : marker.concerns step
  · rw [if_pos h]
    simp [h]
  · rw [if_neg h]
    simp [h]

/-- The time of a begin marker. -/
def Marker.begun : Marker → Option Int
  | .beginStep _ start => some start
  | _ => none

/-- The time of the nearest marker of a step, if that marker is a begin. -/
def openSince (step : StepIndex) (past : List (Nat × Marker)) : Option Int :=
  (nearest step past).bind Marker.begun

theorem openSince_concat (step : StepIndex) (past : List (Nat × Marker)) (line : Nat)
    (marker : Marker) :
    openSince step (past ++ [(line, marker)])
      = if marker.concerns step then marker.begun else openSince step past := by
  simp only [openSince]
  rw [nearest_concat]
  by_cases h : marker.concerns step
  · rw [if_pos h, if_pos h]
    rfl
  · rw [if_neg h, if_neg h]

/-! ## The rules, stated on the past -/

/-- The sample an event gives to a step: the time since the nearest marker of
    the step, for an end of the step that follows a begin. -/
def sampleOf (step : StepIndex) : List (Nat × Marker) × (Nat × Marker) → Option Int
  | (past, (_, .endStep s finish)) =>
      if s = step then (openSince step past).map (finish - ·) else none
  | _ => none

/-- What is reported of an event: a begin of a step that is open, an end of a
    step that is not, and an end that lies before its begin. -/
def diagnosticOf (source : String) : List (Nat × Marker) × (Nat × Marker) → Option Diagnostic
  | (past, (line, .beginStep step _)) =>
      (openSince step past).map fun start => ⟨source, line, step, .beginWhileOpen start⟩
  | (past, (line, .endStep step finish)) =>
      match openSince step past with
      | none => some ⟨source, line, step, .endWithoutBegin⟩
      | some start =>
          if finish < start then some ⟨source, line, step, .negativeDuration (finish - start)⟩
          else none
  | _ => none

/-- All samples of a step in a sequence of events. -/
def samplesOf (step : StepIndex) (events : List (Nat × Marker)) : List Int :=
  (withPast events).filterMap (sampleOf step)

/-- All that is reported of a sequence of events. -/
def diagnosticsOf (source : String) (events : List (Nat × Marker)) : List Diagnostic :=
  (withPast events).filterMap (diagnosticOf source)

theorem samplesOf_concat (step : StepIndex) (past : List (Nat × Marker)) (event : Nat × Marker) :
    samplesOf step (past ++ [event])
      = samplesOf step past ++ (sampleOf step (past, event)).toList := by
  simp only [samplesOf]
  rw [withPast_concat, List.filterMap_append]
  cases h : sampleOf step (past, event) with
  | none => simp [h]
  | some sample => simp [h]

theorem diagnosticsOf_concat (source : String) (past : List (Nat × Marker))
    (event : Nat × Marker) :
    diagnosticsOf source (past ++ [event])
      = diagnosticsOf source past ++ (diagnosticOf source (past, event)).toList := by
  simp only [diagnosticsOf]
  rw [withPast_concat, List.filterMap_append]
  cases h : diagnosticOf source (past, event) with
  | none => simp [h]
  | some diagnostic => simp [h]

/-- All of it bears the name of the log. -/
theorem source_of_mem_diagnosticsOf {source : String} {events : List (Nat × Marker)}
    {diagnostic : Diagnostic} (h : diagnostic ∈ diagnosticsOf source events) :
    diagnostic.source = source := by
  obtain ⟨⟨past, line, marker⟩, -, hreported⟩ := List.mem_filterMap.mp h
  cases marker with
  | beginStep step start =>
      obtain ⟨replaced, -, rfl⟩ := Option.map_eq_some_iff.mp hreported
      rfl
  | endStep step finish =>
      simp only [diagnosticOf] at hreported
      split at hreported
      · cases hreported
        rfl
      · obtain ⟨-, heq⟩ := Option.ite_none_right_eq_some.mp hreported
        cases heq
        rfl
  | startCycle cycle start => cases hreported
  | endId cycle finish => cases hreported
  | waiting cycle wait => cases hreported

/-! ## The tracker keeps to the rules -/

/-- The tracker after a sequence of events, from a fresh one. -/
def StepTracker.after (source : String) (events : List (Nat × Marker)) : StepTracker :=
  events.foldl (fun tracker event => tracker.observe event.1 event.2) { source }

theorem after_concat (source : String) (past : List (Nat × Marker)) (line : Nat)
    (marker : Marker) :
    StepTracker.after source (past ++ [(line, marker)])
      = (StepTracker.after source past).observe line marker := by
  simp only [StepTracker.after]
  rw [List.foldl_append]
  rfl

/-- A begin takes no sample. -/
theorem samples_onBegin (track : StepTrack) (start : Int) :
    (track.onBegin start).1.samples = track.samples := rfl

/-- An end takes one sample from an open track and none from a closed one. -/
theorem samples_onEnd (track : StepTrack) (finish : Int) :
    (track.onEnd finish).1.samples
      = track.samples ++ (track.opened.map (finish - ·)).toList := by
  cases h : track.opened with
  | none => simp [StepTrack.onEnd, h]
  | some start => simp [StepTrack.onEnd, StepTrack.samples, h]

/-- After an end the track is closed, whether it was open or not. -/
theorem opened_onEnd (track : StepTrack) (finish : Int) :
    (track.onEnd finish).1.opened = none := by
  cases h : track.opened with
  | none => simp [StepTrack.onEnd, h]
  | some start => simp [StepTrack.onEnd, h]

/-- The invariant: slots, samples and diagnostics of a tracker are those that
    the rules give for the events so far. -/
structure Paired (source : String) (events : List (Nat × Marker)) (tracker : StepTracker) :
    Prop where
  source_eq : tracker.source = source
  opened_eq : ∀ step, (tracker.tracks.get step).opened = openSince step events
  samples_eq : ∀ step, (tracker.tracks.get step).samples = samplesOf step events
  diagnostics_eq : tracker.diagnostics = diagnosticsOf source events

/-- A begin keeps the invariant: it opens its step and reports the begin that
    it takes the place of. -/
theorem Paired.observe_begin {source : String} {past : List (Nat × Marker)}
    {tracker : StepTracker} (h : Paired source past tracker) (line : Nat) (changed : StepIndex)
    (start : Int) :
    Paired source (past ++ [(line, .beginStep changed start)])
      (tracker.observe line (.beginStep changed start)) := by
  refine ⟨h.source_eq, ?_, ?_, ?_⟩
  · intro step
    show ((tracker.change line changed (StepTrack.onBegin start)).tracks.get step).opened = _
    rw [StepTracker.get_change, openSince_concat]
    by_cases hs : changed = step
    · simp [Marker.concerns, Marker.begun, StepTrack.onBegin, hs]
    · simp [Marker.concerns, hs, h.opened_eq]
  · intro step
    show ((tracker.change line changed (StepTrack.onBegin start)).tracks.get step).samples = _
    rw [StepTracker.get_change, samplesOf_concat, ← h.samples_eq]
    by_cases hs : changed = step
    · rw [if_pos hs, samples_onBegin]
      simp [sampleOf]
    · rw [if_neg hs]
      simp [sampleOf]
  · -- the report is made of the slot as it was before the begin
    show (tracker.change line changed (StepTrack.onBegin start)).diagnostics = _
    rw [StepTracker.diagnostics_change, diagnosticsOf_concat, h.diagnostics_eq, h.source_eq]
    simp only [StepTrack.onBegin, diagnosticOf, h.opened_eq, Option.map_map]
    rfl

/-- An end keeps the invariant: it closes its step, and the time since the
    begin, if there is one, becomes a sample. -/
theorem Paired.observe_end {source : String} {past : List (Nat × Marker)}
    {tracker : StepTracker} (h : Paired source past tracker) (line : Nat) (changed : StepIndex)
    (finish : Int) :
    Paired source (past ++ [(line, .endStep changed finish)])
      (tracker.observe line (.endStep changed finish)) := by
  refine ⟨h.source_eq, ?_, ?_, ?_⟩
  · intro step
    show ((tracker.change line changed (StepTrack.onEnd finish)).tracks.get step).opened = _
    rw [StepTracker.get_change, openSince_concat]
    by_cases hs : changed = step
    · rw [if_pos hs, opened_onEnd]
      simp [Marker.concerns, Marker.begun, hs]
    · simp [Marker.concerns, hs, h.opened_eq]
  · intro step
    show ((tracker.change line changed (StepTrack.onEnd finish)).tracks.get step).samples = _
    rw [StepTracker.get_change, samplesOf_concat, ← h.samples_eq]
    by_cases hs : changed = step
    · rw [if_pos hs, samples_onEnd, h.opened_eq]
      simp [sampleOf, hs]
    · rw [if_neg hs]
      simp [sampleOf, hs]
  · show (tracker.change line changed (StepTrack.onEnd finish)).diagnostics = _
    rw [StepTracker.diagnostics_change, diagnosticsOf_concat, h.diagnostics_eq, h.source_eq]
    congr 2
    -- the tracker asks for the sign of the difference, the rule for the order
    cases hopen : openSince changed past with
    | none => simp [StepTrack.onEnd, diagnosticOf, h.opened_eq, hopen]
    | some start =>
        have hsign : finish - start < 0 ↔ finish < start := by omega
        simp only [StepTrack.onEnd, diagnosticOf, h.opened_eq, hopen, hsign]
        by_cases hneg : finish < start
        · simp [hneg]
        · simp [hneg]

/-- A marker of no step keeps the invariant: nobody takes notice of it. -/
theorem Paired.observe_other {source : String} {past : List (Nat × Marker)}
    {tracker : StepTracker} (h : Paired source past tracker) (line : Nat) {marker : Marker}
    (hother : ∀ step, marker.concerns step = false) :
    Paired source (past ++ [(line, marker)]) (tracker.observe line marker) := by
  have hsample : ∀ step, sampleOf step (past, (line, marker)) = none := by
    intro step
    cases marker with
    | endStep s finish => exact absurd (hother s) (by simp [Marker.concerns])
    | _ => rfl
  have hdiagnostic : diagnosticOf source (past, (line, marker)) = none := by
    cases marker with
    | beginStep s start => exact absurd (hother s) (by simp [Marker.concerns])
    | endStep s finish => exact absurd (hother s) (by simp [Marker.concerns])
    | _ => rfl
  have hsame : tracker.observe line marker = tracker := by
    cases marker with
    | beginStep s start => exact absurd (hother s) (by simp [Marker.concerns])
    | endStep s finish => exact absurd (hother s) (by simp [Marker.concerns])
    | _ => rfl
  rw [hsame]
  refine ⟨h.source_eq, ?_, ?_, ?_⟩
  · intro step
    rw [openSince_concat, hother step]
    exact h.opened_eq step
  · intro step
    rw [samplesOf_concat, hsample step]
    simpa using h.samples_eq step
  · rw [diagnosticsOf_concat, hdiagnostic]
    simpa using h.diagnostics_eq

/-- Whatever the next event is, the invariant outlasts it. -/
theorem Paired.observe {source : String} {past : List (Nat × Marker)} {tracker : StepTracker}
    (h : Paired source past tracker) (line : Nat) (marker : Marker) :
    Paired source (past ++ [(line, marker)]) (tracker.observe line marker) := by
  cases marker with
  | beginStep step start => exact h.observe_begin line step start
  | endStep step finish => exact h.observe_end line step finish
  | startCycle cycle start => exact h.observe_other line (fun _ => rfl)
  | endId cycle finish => exact h.observe_other line (fun _ => rfl)
  | waiting cycle wait => exact h.observe_other line (fun _ => rfl)

/-- The invariant holds after every run: nothing is open, sampled or reported
    before the first event. -/
theorem paired_after (source : String) (events : List (Nat × Marker)) :
    Paired source events (StepTracker.after source events) := by
  induction events using List.reverseRecOn with
  | nil =>
      refine ⟨rfl, ?_, ?_, rfl⟩
      · intro step
        show ((PerStep.ofFn fun _ => ({} : StepTrack)).get step).opened = none
        rw [PerStep.get_ofFn]
      · intro step
        show ((PerStep.ofFn fun _ => ({} : StepTrack)).get step).samples = []
        rw [PerStep.get_ofFn]
        rfl
  | append_singleton past event ih =>
      obtain ⟨line, marker⟩ := event
      rw [after_concat]
      exact ih.observe line marker

end RunTimings
