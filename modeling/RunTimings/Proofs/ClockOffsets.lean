import RunTimings.Proofs.BoundRuns
import RunTimings.Proofs.ScanContinuation

/-! # Clock offsets — only differences of times are told

    A log may have been written by a clock that is ahead by some offset.  Times
    are kept in slots and only ever subtracted from each other, so a machine that
    is shown later times is the same machine with later times in its slots.

    * `StepTracker.observe_shifted` and `CycleBounds.observe_shifted` — that is
      kept by every event, and so by every run (`after_shifted`,
      `stateAfter_shifted`);
    * `StepTracker.summary_shifted` — a summary tells a time only where a begin is
      given up;
    * `CycleBounds.durations_shifted` — durations tell no time, but a time that is
      not positive counts as none, so here both clocks have to be positive;
    * **`clock_offsets_cancel`** — the summary of the steps and the durations of
      the cycles for two clocks. -/

namespace RunTimings

/-! ## Markers of another clock -/

/-- The marker with the times of the steps and those of the cycles later by some
    offset each; a wait is no time. -/
def Marker.shifted (steps cycles : Int) : Marker → Marker
  | .beginStep step timestamp => .beginStep step (timestamp + steps)
  | .endStep step timestamp => .endStep step (timestamp + steps)
  | .startCycle cycle timestamp => .startCycle cycle (timestamp + cycles)
  | .endId cycle timestamp => .endId cycle (timestamp + cycles)
  | .waiting cycle wait => .waiting cycle wait

/-- The events by another clock, on the same lines. -/
def shiftedEvents (steps cycles : Int) (events : List (Nat × Marker)) : List (Nat × Marker) :=
  events.map fun event => (event.1, event.2.shifted steps cycles)

theorem shiftedEvents_concat (steps cycles : Int) (past : List (Nat × Marker)) (line : Nat)
    (marker : Marker) :
    shiftedEvents steps cycles (past ++ [(line, marker)])
      = shiftedEvents steps cycles past ++ [(line, marker.shifted steps cycles)] :=
  List.map_append

/-! ## Steps -/

/-- A begin that is given up is told with its time, which is later. -/
def Problem.shifted (offset : Int) : Problem → Problem
  | .endWithoutBegin => .endWithoutBegin
  | .beginWhileOpen replaced => .beginWhileOpen (replaced + offset)
  | .negativeDuration duration => .negativeDuration duration

/-- The same problem at the same place, told by the other clock. -/
def Diagnostic.shifted (offset : Int) (diagnostic : Diagnostic) : Diagnostic :=
  { diagnostic with problem := diagnostic.problem.shifted offset }

/-- The track with a later time in its slot, and the same samples. -/
def StepTrack.shifted (offset : Int) (track : StepTrack) : StepTrack :=
  { track with opened := track.opened.map (· + offset) }

/-- The tracker with later times in all of its slots. -/
def StepTracker.shifted (offset : Int) (tracker : StepTracker) : StepTracker :=
  { tracker with
    tracks := tracker.tracks.map (StepTrack.shifted offset)
    latestFirst := tracker.latestFirst.map (Diagnostic.shifted offset) }

/-- A begin replaces one later time by another. -/
theorem StepTrack.onBegin_shifted (offset timestamp : Int) (track : StepTrack) :
    (track.shifted offset).onBegin (timestamp + offset)
      = Prod.map (StepTrack.shifted offset) (Option.map (Problem.shifted offset))
          (track.onBegin timestamp) := by
  show (_, _) = (_, _)
  simp only [StepTrack.shifted, Option.map_map]
  rfl

/-- An end takes the difference of two later times. -/
theorem StepTrack.onEnd_shifted (offset timestamp : Int) (track : StepTrack) :
    (track.shifted offset).onEnd (timestamp + offset)
      = Prod.map (StepTrack.shifted offset) (Option.map (Problem.shifted offset))
          (track.onEnd timestamp) := by
  cases hopen : track.opened with
  | none => simp [StepTrack.onEnd, StepTrack.shifted, hopen, Problem.shifted]
  | some start =>
      have hsample : timestamp + offset - (start + offset) = timestamp - start := by omega
      simp only [StepTrack.onEnd, StepTrack.shifted, hopen, Option.map_some, hsample]
      by_cases hneg : timestamp - start < 0
      · rw [if_pos hneg]
        rfl
      · rw [if_neg hneg]
        rfl

/-- What agrees on one track agrees on the tracker. -/
theorem StepTracker.change_shifted {offset : Int}
    {onTrack onShifted : StepTrack → StepTrack × Option Problem}
    (h : ∀ track, onShifted (track.shifted offset)
      = Prod.map (StepTrack.shifted offset) (Option.map (Problem.shifted offset)) (onTrack track))
    (tracker : StepTracker) (line : Nat) (step : StepIndex) :
    (tracker.shifted offset).change line step onShifted
      = (tracker.change line step onTrack).shifted offset := by
  have htrack : onShifted ((tracker.shifted offset).tracks.get step)
      = Prod.map (StepTrack.shifted offset) (Option.map (Problem.shifted offset))
          (onTrack (tracker.tracks.get step)) := by
    rw [← h]
    exact congrArg onShifted (PerStep.get_map _ _ step)
  simp only [StepTracker.change]
  rw [htrack]
  generalize onTrack (tracker.tracks.get step) = next
  obtain ⟨track, problem⟩ := next
  simp only [Prod.map, StepTracker.shifted, PerStep.map_set, List.map_append]
  cases problem with
  | none => rfl
  | some problem => rfl

/-- **ONE EVENT**: shown a later time, a tracker with later times in its slots
    goes on to one with later times in its slots. -/
theorem StepTracker.observe_shifted (steps cycles : Int) (tracker : StepTracker) (line : Nat)
    (marker : Marker) :
    (tracker.shifted steps).observe line (marker.shifted steps cycles)
      = (tracker.observe line marker).shifted steps := by
  cases marker with
  | beginStep step timestamp =>
      exact StepTracker.change_shifted (StepTrack.onBegin_shifted steps timestamp) tracker line step
  | endStep step timestamp =>
      exact StepTracker.change_shifted (StepTrack.onEnd_shifted steps timestamp) tracker line step
  | startCycle cycle timestamp => rfl
  | endId cycle timestamp => rfl
  | waiting cycle wait => rfl

/-- A run by the other clock ends in the same tracker, with later times. -/
theorem after_shifted (source : String) (steps cycles : Int) (events : List (Nat × Marker)) :
    StepTracker.after source (shiftedEvents steps cycles events)
      = (StepTracker.after source events).shifted steps := by
  induction events using List.reverseRecOn with
  | nil =>
      show ({ source } : StepTracker) = StepTracker.shifted steps { source }
      have hslots : PerStep.map (StepTrack.shifted steps) (PerStep.ofFn fun _ => {})
          = PerStep.ofFn fun _ => {} := by
        refine PerStep.ext fun step => ?_
        rw [PerStep.get_map, PerStep.get_ofFn]
        rfl
      simp only [StepTracker.shifted, hslots]
      rfl
  | append_singleton past event ih =>
      obtain ⟨line, marker⟩ := event
      rw [shiftedEvents_concat, after_concat, after_concat, ih, StepTracker.observe_shifted]

/-- The summary with later times in its diagnostics. -/
def StepSummary.shifted (offset : Int) (summary : StepSummary) : StepSummary :=
  { summary with diagnostics := summary.diagnostics.map (Diagnostic.shifted offset) }

/-- The samples are not in the slots, so means and counts stay. -/
theorem StepTracker.summary_shifted (offset : Int) (tracker : StepTracker) :
    (tracker.shifted offset).summary = tracker.summary.shifted offset := by
  have htracks : ∀ {α : Type} (read : StepTrack → α),
      (∀ track, read (track.shifted offset) = read track) →
        PerStep.map read (tracker.shifted offset).tracks = PerStep.map read tracker.tracks := by
    intro α read hread
    refine PerStep.ext fun step => ?_
    have hget : (tracker.shifted offset).tracks.get step
        = (tracker.tracks.get step).shifted offset := PerStep.get_map _ _ step
    rw [PerStep.get_map, PerStep.get_map, hget, hread]
  have hdiagnostics : (tracker.shifted offset).diagnostics
      = tracker.diagnostics.map (Diagnostic.shifted offset) := List.map_reverse.symm
  simp only [StepTracker.summary, StepSummary.shifted]
  rw [hdiagnostics, htracks _ fun _ => rfl, htracks _ fun _ => rfl]
  rfl

/-! ## Cycles -/

/-- The table with later times in all of its slots. -/
def CycleBounds.shifted {cycles : Nat} (offset : Int) (bounds : CycleBounds cycles) :
    CycleBounds cycles :=
  ⟨bounds.starts.map (Option.map (· + offset)), bounds.finishes.map (Option.map (· + offset))⟩

/-- **ONE EVENT**: shown a later time, a table with later times in its slots
    refuses the same cycles and goes on to one with later times in its slots. -/
theorem CycleBounds.observe_shifted {cycles : Nat} (source : String) (line : Nat)
    (steps offset : Int) (marker : Marker) (bounds : CycleBounds cycles) :
    (bounds.shifted offset).observe source line (marker.shifted steps offset)
      = ⟨(bounds.observe source line marker).state.shifted offset,
          (bounds.observe source line marker).stop⟩ := by
  cases marker with
  | startCycle cycle timestamp =>
      simp only [Marker.shifted]
      rw [CycleBounds.observe_start, CycleBounds.observe_start]
      by_cases hknown : cycle < cycles
      · rw [dif_pos hknown, dif_pos hknown]
        simp [CycleBounds.shifted]
      · rw [dif_neg hknown, dif_neg hknown]
  | endId cycle timestamp =>
      simp only [Marker.shifted]
      rw [CycleBounds.observe_end, CycleBounds.observe_end]
      by_cases hknown : cycle < cycles
      · rw [dif_pos hknown, dif_pos hknown]
        simp [CycleBounds.shifted]
      · rw [dif_neg hknown, dif_neg hknown]
  | _ => rfl

/-- A run by the other clock ends in the same table, with later times. -/
theorem stateAfter_shifted (source : String) (cycles : Nat) (steps offset : Int)
    (events : List (Nat × Marker)) :
    stateAfter (CycleBounds.observe source) (CycleBounds.unset cycles)
        (shiftedEvents steps offset events)
      = (stateAfter (CycleBounds.observe source) (CycleBounds.unset cycles) events).shifted
          offset := by
  induction events using List.reverseRecOn with
  | nil =>
      show CycleBounds.unset cycles = (CycleBounds.unset cycles).shifted offset
      simp [CycleBounds.unset, CycleBounds.shifted]
  | append_singleton past event ih =>
      obtain ⟨line, marker⟩ := event
      rw [shiftedEvents_concat, stateAfter_concat, stateAfter_concat, ih,
        CycleBounds.observe_shifted]

/-- What a visitor that goes on after every refusal answers to each event. -/
def answers {σ ε : Type} (visit : Nat → Marker → σ → Progress σ ε) (start : σ)
    (events : List (Nat × Marker)) : List (Option ε) :=
  (withPast events).map fun (past, line, marker) =>
    (visit line marker (stateAfter visit start past)).stop

theorem answers_concat {σ ε : Type} (visit : Nat → Marker → σ → Progress σ ε) (start : σ)
    (past : List (Nat × Marker)) (line : Nat) (marker : Marker) :
    answers visit start (past ++ [(line, marker)])
      = answers visit start past
        ++ [(visit line marker (stateAfter visit start past)).stop] := by
  simp only [answers]
  rw [withPast_concat, List.map_append]
  rfl

/-- The table answers the same to both clocks. -/
theorem answers_shifted (source : String) (cycles : Nat) (steps offset : Int)
    (events : List (Nat × Marker)) :
    answers (CycleBounds.observe source) (CycleBounds.unset cycles)
        (shiftedEvents steps offset events)
      = answers (CycleBounds.observe source) (CycleBounds.unset cycles) events := by
  induction events using List.reverseRecOn with
  | nil => rfl
  | append_singleton past event ih =>
      obtain ⟨line, marker⟩ := event
      rw [shiftedEvents_concat, answers_concat, answers_concat, ih, stateAfter_shifted,
        CycleBounds.observe_shifted]

/-- A time that is positive, by the other clock too. -/
def PositiveBy (offset timestamp : Int) : Prop :=
  0 < timestamp ∧ 0 < timestamp + offset

/-- All starts and ends of cycles have positive times by both clocks. -/
structure CyclesPositive (offset : Int) (events : List (Nat × Marker)) : Prop where
  starts : ∀ line cycle timestamp, (line, .startCycle cycle timestamp) ∈ events →
    PositiveBy offset timestamp
  finishes : ∀ line cycle timestamp, (line, .endId cycle timestamp) ∈ events →
    PositiveBy offset timestamp

/-- All times in the table are positive by both clocks. -/
def CycleBounds.Positive {cycles : Nat} (offset : Int) (bounds : CycleBounds cycles) : Prop :=
  ∀ (bound : CycleBound) (cycle : Nat) (h : cycle < cycles),
    ∀ t ∈ (bounds.times bound)[cycle], PositiveBy offset t

theorem CyclesPositive.of_boundOf {offset : Int} {events : List (Nat × Marker)}
    (h : CyclesPositive offset events) {line : Nat} {marker : Marker}
    (hmem : (line, marker) ∈ events) {bound : CycleBound} {cycle : Nat} {timestamp : Int}
    (hbound : marker.boundOf bound cycle = some timestamp) : PositiveBy offset timestamp := by
  obtain rfl := marker.eq_of_boundOf hbound
  cases bound with
  | start => exact h.starts line cycle timestamp hmem
  | finish => exact h.finishes line cycle timestamp hmem

/-- Every event keeps the times in the table positive. -/
theorem CycleBounds.Positive.observe {cycles : Nat} {offset : Int} {bounds : CycleBounds cycles}
    (h : bounds.Positive offset) (source : String) (line : Nat) {marker : Marker}
    (hmarker : ∀ bound cycle t, marker.boundOf bound cycle = some t → PositiveBy offset t) :
    (bounds.observe source line marker).state.Positive offset := by
  intro bound cycle hc t ht
  by_cases hknown : marker.BoundKnown cycles
  · rw [CycleBounds.times_observe source line marker bounds hknown bound cycle hc,
      Option.mem_def, Option.or_eq_some_iff] at ht
    rcases ht with hnew | ⟨-, hold⟩
    · exact hmarker bound cycle t hnew
    · exact h bound cycle hc t hold
  · rw [CycleBounds.state_of_unknown source line bounds hknown] at ht
    exact h bound cycle hc t ht

theorem positive_stateAfter (source : String) (cycles : Nat) {offset : Int}
    {events : List (Nat × Marker)} (h : CyclesPositive offset events) :
    (stateAfter (CycleBounds.observe source) (CycleBounds.unset cycles) events).Positive
      offset := by
  induction events using List.reverseRecOn with
  | nil =>
      intro bound cycle hc t ht
      cases bound with
      | start => simp [stateAfter, CycleBounds.unset, CycleBounds.times] at ht
      | finish => simp [stateAfter, CycleBounds.unset, CycleBounds.times] at ht
  | append_singleton past event ih =>
      obtain ⟨line, marker⟩ := event
      have hpast : CyclesPositive offset past :=
        ⟨fun number cycle t hmem => h.starts number cycle t (List.mem_append_left _ hmem),
          fun number cycle t hmem => h.finishes number cycle t (List.mem_append_left _ hmem)⟩
      rw [stateAfter_concat]
      exact (ih hpast).observe source line fun bound cycle t hbound =>
        h.of_boundOf (List.mem_append_right _ List.mem_cons_self) hbound

/-- A duration is a difference of two times that count by both clocks. -/
theorem cycleDuration_shifted (source : String) (cycle : Nat) {offset : Int}
    {start finish : Option Int} (hstart : ∀ t ∈ start, PositiveBy offset t)
    (hfinish : ∀ t ∈ finish, PositiveBy offset t) :
    cycleDuration source cycle (start.map (· + offset)) (finish.map (· + offset))
      = cycleDuration source cycle start finish := by
  have husable : ∀ {time : Option Int}, (∀ t ∈ time, PositiveBy offset t) →
      usable (time.map (· + offset)) = time.map (· + offset) ∧ usable time = time := by
    intro time htime
    cases time with
    | none => exact ⟨rfl, rfl⟩
    | some t =>
        obtain ⟨hpos, hpos'⟩ := htime t rfl
        exact ⟨Option.filter_some_pos (by simpa using hpos'),
          Option.filter_some_pos (by simpa using hpos)⟩
  simp only [cycleDuration]
  rw [(husable hstart).1, (husable hstart).2, (husable hfinish).1, (husable hfinish).2]
  cases start with
  | none => rfl
  | some start =>
      cases finish with
      | none => rfl
      | some finish =>
          have hduration : finish + offset - (start + offset) = finish - start := by omega
          simp only [Option.map_some, hduration]

theorem CycleBounds.durations_shifted {cycles : Nat} (source : String) {offset : Int}
    {bounds : CycleBounds cycles} (h : bounds.Positive offset) :
    (bounds.shifted offset).durations source = bounds.durations source := by
  have hcycle : ∀ cycle : Fin cycles,
      cycleDuration source cycle ((bounds.shifted offset).starts.get cycle)
          ((bounds.shifted offset).finishes.get cycle)
        = cycleDuration source cycle (bounds.starts.get cycle) (bounds.finishes.get cycle) := by
    intro cycle
    have hstart : (bounds.shifted offset).starts.get cycle
        = (bounds.starts.get cycle).map (· + offset) := Vector.getElem_map _ cycle.isLt
    have hfinish : (bounds.shifted offset).finishes.get cycle
        = (bounds.finishes.get cycle).map (· + offset) := Vector.getElem_map _ cycle.isLt
    rw [hstart, hfinish]
    exact cycleDuration_shifted source cycle (h .start cycle cycle.isLt)
      (h .finish cycle cycle.isLt)
  simp only [CycleBounds.durations, hcycle]

/-! ## Both clocks -/

/-- **CLOCK OFFSETS**: by a clock that is ahead by some offset the steps have the
    same means, the same numbers of samples and the same diagnostics, except that
    a begin that is given up is told with its later time; and where the times of
    the cycles are positive by both clocks, every marker gets the same answer and
    the cycles have the same durations or lack the same bound. -/
theorem clock_offsets_cancel (source : String) (cycles : Nat) (steps offset : Int)
    (events : List (Nat × Marker)) :
    ((StepTracker.after source (shiftedEvents steps offset events)).summary.means
          = (StepTracker.after source events).summary.means
        ∧ (StepTracker.after source (shiftedEvents steps offset events)).summary.sampleCounts
          = (StepTracker.after source events).summary.sampleCounts
        ∧ (StepTracker.after source (shiftedEvents steps offset events)).summary.diagnostics
          = (StepTracker.after source events).summary.diagnostics.map (Diagnostic.shifted steps))
      ∧ (CyclesPositive offset events →
        answers (CycleBounds.observe source) (CycleBounds.unset cycles)
            (shiftedEvents steps offset events)
          = answers (CycleBounds.observe source) (CycleBounds.unset cycles) events
        ∧ (stateAfter (CycleBounds.observe source) (CycleBounds.unset cycles)
            (shiftedEvents steps offset events)).durations source
          = (stateAfter (CycleBounds.observe source) (CycleBounds.unset cycles) events).durations
              source) := by
  refine ⟨?_, fun hpositive => ⟨answers_shifted source cycles steps offset events, ?_⟩⟩
  · rw [after_shifted, StepTracker.summary_shifted]
    exact ⟨rfl, rfl, rfl⟩
  · rw [stateAfter_shifted]
    exact CycleBounds.durations_shifted source (positive_stateAfter source cycles hpositive)

/-- A cycle that takes five, and the start of another one that is not asked for. -/
def earlyCycle : List (Nat × Marker) :=
  [(1, .startCycle 0 7), (2, .endId 0 12), (5, .startCycle 2 30)]

/-- By a clock that is behind by six it takes five as well. -/
theorem durations_of_earlyCycle :
    (stateAfter (CycleBounds.observe "asker") (CycleBounds.unset 1)
        (shiftedEvents 0 (-6) earlyCycle)).durations "asker" = .ok [5] := by
  have hpositive : CyclesPositive (-6) earlyCycle := by
    constructor
    · intro line cycle timestamp hmem
      simp only [earlyCycle, List.mem_cons, Prod.mk.injEq, Marker.startCycle.injEq,
        reduceCtorEq, and_false, List.not_mem_nil, or_false, false_or] at hmem
      rcases hmem with ⟨-, -, rfl⟩ | ⟨-, -, rfl⟩ <;> exact ⟨by decide, by decide⟩
    · intro line cycle timestamp hmem
      simp only [earlyCycle, List.mem_cons, Prod.mk.injEq, Marker.endId.injEq,
        reduceCtorEq, and_false, List.not_mem_nil, or_false, false_or] at hmem
      obtain ⟨-, -, rfl⟩ := hmem
      exact ⟨by decide, by decide⟩
  rw [((clock_offsets_cancel "asker" 1 0 (-6) earlyCycle).2 hpositive).2]
  decide +kernel

end RunTimings
