import RunTimings.Proofs.LogReading
import RunTimings.Proofs.StepAccounts

/-! # Steps of a whole log — which of them have data

    `StepAccounts` speaks of sequences of events; here the events are those of a
    log.  A tracker never stops a scan, so the only thing that can keep a log
    from having a summary is a line that cannot be used.

    * `summariseSteps_eq_ok_iff` — a log has a summary exactly if it is readable,
      and it is that of the tracker after all of its events.
    * `Completes` says of the bare markers that a step has data: there is an end
      of the step whose nearest earlier marker of the step is a begin;
      `data_iff_completes` finds the same in the mean and in the sample count of
      the summary. -/

namespace RunTimings

/-! ## Logs as sequences of events -/

/-- The markers among some findings, each with the number of its line. -/
def eventsAmong (findings : List Finding) : List (Nat × Marker) :=
  findings.filterMap fun finding => finding.found.toOption.map (finding.line, ·)

/-- The events of a log: its markers with their lines. -/
def LogContent.events (log : LogContent) : List (Nat × Marker) :=
  eventsAmong log.findings

theorem map_snd_eventsAmong (findings : List Finding) :
    (eventsAmong findings).map Prod.snd = seen findings := by
  simp only [eventsAmong, seen]
  rw [List.map_filterMap]
  simp only [Option.map_map]
  exact List.filterMap_congr fun finding _ => Option.map_id'

/-- The events of a readable log are its markers, line numbers aside. -/
theorem LogContent.Readable.map_snd_events {log : LogContent} (h : log.Readable) :
    log.events.map Prod.snd = log.markers :=
  (map_snd_eventsAmong log.findings).trans (seen_findings h.1)

/-- A visitor that never stops is led through all findings exactly if none of
    them is a fault, and ends where the events take it. -/
theorem scan_never_stopping {σ ε : Type} (refuse : Nat → LineFault → ε)
    (next : Nat → Marker → σ → σ) (findings : List Finding) (start : σ) :
    ((scan refuse (fun line marker state => ⟨next line marker state, none⟩) findings start).stop
        = none ↔ ∀ finding ∈ findings, ∃ marker, finding.found = .ok marker)
      ∧ ((scan refuse (fun line marker state => ⟨next line marker state, none⟩) findings
          start).stop = none →
        (scan refuse (fun line marker state => ⟨next line marker state, none⟩) findings
            start).state
          = (eventsAmong findings).foldl (fun state event => next event.1 event.2 state)
              start) := by
  induction findings generalizing start with
  | nil =>
      refine ⟨⟨?_, fun _ => rfl⟩, fun _ => rfl⟩
      intro _ finding hfinding
      exact nomatch hfinding
  | cons finding rest ih =>
      obtain ⟨line, fault | marker⟩ := finding
      · refine ⟨⟨?_, ?_⟩, ?_⟩
        · intro heq
          cases heq
        · intro hall
          obtain ⟨_, heq⟩ := hall _ List.mem_cons_self
          cases heq
        · intro heq
          cases heq
      · obtain ⟨hstop, hstate⟩ := ih (next line marker start)
        refine ⟨?_, hstate⟩
        rw [List.forall_mem_cons]
        exact hstop.trans ⟨fun hrest => ⟨⟨marker, rfl⟩, hrest⟩, fun hall => hall.2⟩

/-- The pairing of a log is a scan by a visitor that never stops. -/
theorem trackSteps_eq (source : String) (log : LogContent) :
    trackSteps source log = scan (Failure.ofLine source)
      (fun line marker tracker => ⟨tracker.observe line marker, none⟩) log.findings
      { source } := rfl

/-- The pairing of a log runs to its end exactly if the log is readable. -/
theorem trackSteps_stop_eq_none_iff (source : String) (log : LogContent) :
    (trackSteps source log).stop = none ↔ log.Readable := by
  rw [readable_iff_findings]
  exact (scan_never_stopping (Failure.ofLine source) StepTracker.observe log.findings
    { source }).1

/-- The pairing of a readable log ends where its events take it. -/
theorem trackSteps_of_readable {log : LogContent} (h : log.Readable) (source : String) :
    trackSteps source log = ⟨StepTracker.after source log.events, none⟩ := by
  have hstop := (trackSteps_stop_eq_none_iff source log).mpr h
  have hstate : (trackSteps source log).state = StepTracker.after source log.events :=
    (scan_never_stopping (Failure.ofLine source) StepTracker.observe log.findings
      { source }).2 hstop
  generalize trackSteps source log = tracked at hstop hstate ⊢
  obtain ⟨tracker, stop⟩ := tracked
  obtain rfl : stop = none := hstop
  obtain rfl : tracker = StepTracker.after source log.events := hstate
  rfl

/-- **SUMMARIES**: a log has a summary exactly if it is readable, and it is that
    of the tracker after the events of the log. -/
theorem summariseSteps_eq_ok_iff (source : String) (log : LogContent) (summary : StepSummary) :
    summariseSteps source log = .ok summary
      ↔ log.Readable ∧ summary = (StepTracker.after source log.events).summary := by
  simp only [summariseSteps]
  constructor
  · intro hok
    have hreadable : log.Readable := by
      rw [← trackSteps_stop_eq_none_iff source]
      cases hstop : (trackSteps source log).stop with
      | some failure =>
          rw [hstop] at hok
          cases hok
      | none => rfl
    rw [trackSteps_of_readable hreadable] at hok
    exact ⟨hreadable, (Except.ok.inj hok).symm⟩
  · rintro ⟨hreadable, rfl⟩
    rw [trackSteps_of_readable hreadable]

/-! ## Steps with data -/

/-- Some markers complete a step: one of them ends it, and the nearest marker of
    the step before that one begins it. -/
def Completes (step : StepIndex) (markers : List Marker) : Prop :=
  ∃ before start finish after, markers = before ++ .endStep step finish :: after
    ∧ (before.filter (Marker.concerns step)).getLast? = some (.beginStep step start)

theorem mem_withPast {α : Type} {events past : List α} {event : α} :
    (past, event) ∈ withPast events ↔ ∃ after, events = past ++ event :: after := by
  simp only [withPast, List.mem_mapIdx, Prod.mk.injEq]
  constructor
  · rintro ⟨place, h, rfl, rfl⟩
    exact ⟨events.drop (place + 1), by rw [List.getElem_cons_drop, List.take_append_drop]⟩
  · rintro ⟨after, rfl⟩
    exact ⟨past.length, by simp, by simp, by simp⟩

/-- The nearest marker of a step is a marker of the step. -/
theorem concerns_of_nearest {step : StepIndex} {past : List (Nat × Marker)} {marker : Marker}
    (h : nearest step past = some marker) : marker.concerns step = true :=
  (List.mem_filter.mp (List.mem_of_getLast? h)).2

/-- A step is open exactly if its nearest marker begins it. -/
theorem openSince_eq_some_iff {step : StepIndex} {past : List (Nat × Marker)} {start : Int} :
    openSince step past = some start ↔ nearest step past = some (.beginStep step start) := by
  simp only [openSince]
  rw [Option.bind_eq_some_iff]
  constructor
  · rintro ⟨marker, hnearest, hbegun⟩
    have hconcerns := concerns_of_nearest hnearest
    cases marker with
    | beginStep s t =>
        obtain rfl : t = start := Option.some.inj hbegun
        obtain rfl : s = step := of_decide_eq_true hconcerns
        exact hnearest
    | _ => cases hbegun
  · intro hnearest
    exact ⟨_, hnearest, rfl⟩

theorem sampleOf_eq_some_iff {step : StepIndex} {past : List (Nat × Marker)} {line : Nat}
    {marker : Marker} {sample : Int} :
    sampleOf step (past, (line, marker)) = some sample
      ↔ ∃ start finish, marker = .endStep step finish
        ∧ nearest step past = some (.beginStep step start) ∧ sample = finish - start := by
  cases marker with
  | endStep s finish =>
      simp only [sampleOf, ← openSince_eq_some_iff]
      rw [Option.ite_none_right_eq_some, Option.map_eq_some_iff]
      constructor
      · rintro ⟨rfl, start, hopen, rfl⟩
        exact ⟨start, finish, rfl, hopen, rfl⟩
      · rintro ⟨start, finish, heq, hopen, rfl⟩
        cases heq
        exact ⟨rfl, start, hopen, rfl⟩
  | _ =>
      constructor
      · intro heq
        cases heq
      · rintro ⟨_, _, heq, -⟩
        cases heq

/-- A step has samples exactly if it is completed. -/
theorem completes_iff_samples (step : StepIndex) (events : List (Nat × Marker)) :
    Completes step (events.map Prod.snd) ↔ samplesOf step events ≠ [] := by
  constructor
  · rintro ⟨before, start, finish, after, hsplit, hnearest⟩
    obtain ⟨past, rest, rfl, rfl, hrest⟩ := List.map_eq_append_iff.mp hsplit
    obtain ⟨⟨line, _⟩, later, rfl, rfl, rfl⟩ := List.map_eq_cons_iff.mp hrest
    exact List.ne_nil_of_mem (List.mem_filterMap.mpr ⟨_, mem_withPast.mpr ⟨later, rfl⟩,
      sampleOf_eq_some_iff.mpr ⟨start, finish, rfl, hnearest, rfl⟩⟩)
  · intro hsamples
    obtain ⟨sample, hsome⟩ := List.exists_mem_of_ne_nil _ hsamples
    obtain ⟨⟨past, line, marker⟩, hmem, hsample⟩ := List.mem_filterMap.mp hsome
    obtain ⟨later, rfl⟩ := mem_withPast.mp hmem
    obtain ⟨start, finish, rfl, hnearest, -⟩ := sampleOf_eq_some_iff.mp hsample
    exact ⟨past.map Prod.snd, start, finish, later.map Prod.snd, by simp, hnearest⟩

instance (step : StepIndex) (markers : List Marker) : Decidable (Completes step markers) :=
  decidable_of_iff (samplesOf step (markers.map (0, ·)) ≠ []) <| by
    rw [← completes_iff_samples, List.map_map]
    exact iff_of_eq (congrArg (Completes step) (List.map_id' markers))

/-- **DATA**: in the summary of a log a step has a mean, and at least one sample,
    exactly if the markers of the log complete the step. -/
theorem data_iff_completes {source : String} {log : LogContent} {summary : StepSummary}
    (h : summariseSteps source log = .ok summary) (step : StepIndex) :
    ((summary.means.get step).isSome ↔ Completes step log.markers)
      ∧ (0 < summary.sampleCounts.get step ↔ Completes step log.markers) := by
  obtain ⟨hreadable, rfl⟩ := (summariseSteps_eq_ok_iff source log summary).mp h
  rw [sampleCounts_after, means_after, ← hreadable.map_snd_events, completes_iff_samples]
  refine ⟨?_, List.length_pos_iff⟩
  by_cases hnone : samplesOf step log.events = []
  · rw [if_pos hnone]
    simp [hnone]
  · rw [if_neg hnone]
    simp [hnone]

end RunTimings
