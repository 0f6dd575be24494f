import RunTimings.Proofs.StepHistory

/-! # Accounts of the step markers — nothing is lost between two lines

    The rules of `StepHistory` say what one event gives.  This file adds them
    up over a run:

    * the samples of a step are those of its ends that follow a begin, and the
      mean is taken of their exact sum (`samples_follow_nearest_begin`);
    * the diagnostics are those of the single events, and every begin and every
      end of a step is a sample, a diagnostic or the interval left open
      (`step_markers_accounted`).

    The two balances are kept by each event (`end_balance`, `begin_balance`) and
    therefore by a run. -/

namespace RunTimings

/-- The total of a mean is the sum of the samples. -/
theorem total_eq_sum (samples : List Int) : total samples = samples.sum := rfl

/-- The summary counts the samples that the rules give. -/
theorem sampleCounts_after (source : String) (events : List (Nat × Marker)) (step : StepIndex) :
    (StepTracker.after source events).summary.sampleCounts.get step
      = (samplesOf step events).length := by
  show (PerStep.map _ _).get step = _
  rw [PerStep.get_map, (paired_after source events).samples_eq]

/-- The summary takes the mean of the samples that the rules give. -/
theorem means_after (source : String) (events : List (Nat × Marker)) (step : StepIndex) :
    (StepTracker.after source events).summary.means.get step
      = if samplesOf step events = [] then none
        else some (Float.ofInt (samplesOf step events).sum
          / Float.ofNat (samplesOf step events).length) := by
  show (PerStep.map _ _).get step = _
  rw [PerStep.get_map, (paired_after source events).samples_eq]
  simp only [mean, quotient]
  rw [total_eq_sum]

/-- **SAMPLES**: after any sequence of events, a step's samples are, in order,
    the times from begin to end of its ends whose nearest earlier marker of the
    step is a begin; the summary counts them and takes the mean of their sum,
    and has no mean where there is no sample. -/
theorem samples_follow_nearest_begin (source : String) (events : List (Nat × Marker))
    (step : StepIndex) :
    ((StepTracker.after source events).tracks.get step).samples
        = (withPast events).filterMap (sampleOf step)
      ∧ (StepTracker.after source events).summary.sampleCounts.get step
          = (samplesOf step events).length
      ∧ (StepTracker.after source events).summary.means.get step
          = if samplesOf step events = [] then none
            else some (Float.ofInt (samplesOf step events).sum
              / Float.ofNat (samplesOf step events).length) :=
  ⟨(paired_after source events).samples_eq step, sampleCounts_after source events step,
    means_after source events step⟩

-- an end of another step does not close the interval, and a sample may be negative
example :
    samplesOf ⟨0, by decide⟩
      [(1, .beginStep ⟨0, by decide⟩ 9), (2, .endStep ⟨1, by decide⟩ 20),
        (3, .endStep ⟨0, by decide⟩ 5), (4, .endStep ⟨0, by decide⟩ 30)] = [-4] := by
  decide

/-! ## Balances -/

/-- Whether a marker begins the given step. -/
def Marker.begins (step : StepIndex) : Marker → Bool
  | .beginStep s _ => s = step
  | _ => false

/-- Whether a marker ends the given step. -/
def Marker.ends (step : StepIndex) : Marker → Bool
  | .endStep s _ => s = step
  | _ => false

/-- Whether a diagnostic reports an end of the step that has no begin. -/
def Diagnostic.orphanOf (step : StepIndex) (d : Diagnostic) : Bool :=
  match d.problem with
  | .endWithoutBegin => d.step = step.val
  | _ => false

/-- Whether a diagnostic reports a begin of the step that was given up. -/
def Diagnostic.replacedOf (step : StepIndex) (d : Diagnostic) : Bool :=
  match d.problem with
  | .beginWhileOpen _ => d.step = step.val
  | _ => false

/-- The number of intervals of a step that are open after some events. -/
def openCount (step : StepIndex) (events : List (Nat × Marker)) : Nat :=
  if (openSince step events).isSome then 1 else 0

/-- A step's sample comes from an end of the step while it is open. -/
theorem length_sampleOf (step : StepIndex) (past : List (Nat × Marker)) (line : Nat)
    (marker : Marker) :
    (sampleOf step (past, (line, marker))).toList.length
      = if marker.ends step ∧ (openSince step past).isSome then 1 else 0 := by
  cases marker with
  | endStep s finish =>
      by_cases hs : s = step
      · cases hopen : openSince step past with
        | none => simp [sampleOf, Marker.ends, hs, hopen]
        | some start => simp [sampleOf, Marker.ends, hs, hopen]
      · simp [sampleOf, Marker.ends, hs]
  | _ => simp [sampleOf, Marker.ends]

/-- A step's orphan is reported by an end of the step while it is closed. -/
theorem count_orphans (source : String) (step : StepIndex) (past : List (Nat × Marker))
    (line : Nat) (marker : Marker) :
    (diagnosticOf source (past, (line, marker))).toList.countP (Diagnostic.orphanOf step)
      = if marker.ends step ∧ (openSince step past).isNone then 1 else 0 := by
  cases marker with
  | beginStep s start =>
      cases hopen : openSince s past with
      | none => simp [diagnosticOf, Marker.ends, hopen]
      | some since => simp [diagnosticOf, Marker.ends, Diagnostic.orphanOf, hopen]
  | endStep s finish =>
      by_cases hs : s = step
      · subst hs
        cases hopen : openSince s past with
        | none => simp [diagnosticOf, Marker.ends, Diagnostic.orphanOf, hopen]
        | some start =>
            by_cases hneg : finish < start
            · simp [diagnosticOf, Marker.ends, Diagnostic.orphanOf, hopen, hneg]
            · simp [diagnosticOf, Marker.ends, hopen, hneg]
      · have hval : s.val ≠ step.val := fun h => hs (Fin.ext h)
        cases hopen : openSince s past with
        | none => simp [diagnosticOf, Marker.ends, Diagnostic.orphanOf, hopen, hs, hval]
        | some start =>
            by_cases hneg : finish < start
            · simp [diagnosticOf, Marker.ends, Diagnostic.orphanOf, hopen, hs, hneg]
            · simp [diagnosticOf, Marker.ends, hopen, hs, hneg]
  | _ => simp [diagnosticOf, Marker.ends]

/-- A step's replacement is reported by a begin of the step while it is open. -/
theorem count_replacements (source : String) (step : StepIndex) (past : List (Nat × Marker))
    (line : Nat) (marker : Marker) :
    (diagnosticOf source (past, (line, marker))).toList.countP (Diagnostic.replacedOf step)
      = if marker.begins step ∧ (openSince step past).isSome then 1 else 0 := by
  cases marker with
  | beginStep s start =>
      by_cases hs : s = step
      · subst hs
        cases hopen : openSince s past with
        | none => simp [diagnosticOf, Marker.begins, hopen]
        | some since => simp [diagnosticOf, Marker.begins, Diagnostic.replacedOf, hopen]
      · have hval : s.val ≠ step.val := fun h => hs (Fin.ext h)
        cases hopen : openSince s past with
        | none => simp [diagnosticOf, Marker.begins, hopen, hs]
        | some since =>
            simp [diagnosticOf, Marker.begins, Diagnostic.replacedOf, hopen, hs, hval]
  | endStep s finish =>
      cases hopen : openSince s past with
      | none => simp [diagnosticOf, Marker.begins, Diagnostic.replacedOf, hopen]
      | some start =>
          by_cases hneg : finish < start
          · simp [diagnosticOf, Marker.begins, Diagnostic.replacedOf, hopen, hneg]
          · simp [diagnosticOf, Marker.begins, hopen, hneg]
  | _ => simp [diagnosticOf, Marker.begins]

/-- A begin of the step leaves one interval open, an end of it none, and any
    other marker as many as there were. -/
theorem openCount_concat (step : StepIndex) (past : List (Nat × Marker)) (line : Nat)
    (marker : Marker) :
    openCount step (past ++ [(line, marker)])
      = if marker.begins step then 1 else if marker.ends step then 0
        else openCount step past := by
  simp only [openCount]
  rw [openSince_concat]
  cases marker with
  | beginStep s start =>
      by_cases hs : s = step
      · simp [Marker.concerns, Marker.begun, Marker.begins, hs]
      · simp [Marker.concerns, Marker.begins, Marker.ends, hs]
  | endStep s finish =>
      by_cases hs : s = step
      · simp [Marker.concerns, Marker.begun, Marker.begins, Marker.ends, hs]
      · simp [Marker.concerns, Marker.begins, Marker.ends, hs]
  | _ => simp [Marker.concerns, Marker.begins, Marker.ends]

/-- No marker both begins and ends a step. -/
theorem not_ends_of_begins {step : StepIndex} {marker : Marker} (h : marker.begins step = true) :
    marker.ends step = false := by
  cases marker with
  | beginStep s start => rfl
  | _ => exact absurd h (by simp [Marker.begins])

/-- The ends of a step: each is a sample or an orphan. -/
theorem end_balance (source : String) (step : StepIndex) (events : List (Nat × Marker)) :
    events.countP (fun e => e.2.ends step)
      = (samplesOf step events).length
        + (diagnosticsOf source events).countP (Diagnostic.orphanOf step) := by
  induction events using List.reverseRecOn with
  | nil => rfl
  | append_singleton past event ih =>
      obtain ⟨line, marker⟩ := event
      rw [List.countP_append, samplesOf_concat, diagnosticsOf_concat, List.length_append,
        List.countP_append, length_sampleOf, count_orphans, ih]
      -- an end adds one on the left, and on the right one sample or one orphan,
      -- as the step is open or not
      cases hends : marker.ends step with
      | false => simp [hends]
      | true =>
          cases hopen : openSince step past with
          | none => simp [hends]; omega
          | some start => simp [hends]; omega

/-- The begins of a step: each is closed by a sample, given up for a later one,
    or still open. -/
theorem begin_balance (source : String) (step : StepIndex) (events : List (Nat × Marker)) :
    events.countP (fun e => e.2.begins step)
      = (samplesOf step events).length
        + (diagnosticsOf source events).countP (Diagnostic.replacedOf step)
        + openCount step events := by
  induction events using List.reverseRecOn with
  | nil => rfl
  | append_singleton past event ih =>
      obtain ⟨line, marker⟩ := event
      rw [List.countP_append, samplesOf_concat, diagnosticsOf_concat, List.length_append,
        List.countP_append, length_sampleOf, count_replacements, openCount_concat, ih]
      have hcount : openCount step past = if (openSince step past).isSome then 1 else 0 := rfl
      -- a begin adds one on the left; on the right it opens a closed step, or is
      -- a replacement that leaves the step open.  An end moves the open one over
      -- to the samples.
      cases hbegins : marker.begins step with
      | true =>
          have hends := not_ends_of_begins hbegins
          cases hopen : openSince step past with
          | none => simp [hbegins, hends, hcount, hopen]
          | some since => simp [hbegins, hends, hcount, hopen]; omega
      | false =>
          cases hends : marker.ends step with
          | false => simp [hbegins]
          | true =>
              cases hopen : openSince step past with
              | none => simp [hbegins, hcount, hopen]
              | some start => simp [hbegins, hcount, hopen]; omega

/-- **ACCOUNTS**: after any sequence of events, the diagnostics are those of the
    single events in their order; every end of a step is a sample or an end
    without begin, and every begin of it is a sample, a begin given up for a
    later one, or the last marker of the step. -/
theorem step_markers_accounted (source : String) (events : List (Nat × Marker)) :
    (StepTracker.after source events).summary.diagnostics
        = (withPast events).filterMap (diagnosticOf source)
      ∧ ∀ step : StepIndex,
        events.countP (fun e => e.2.ends step)
            = (StepTracker.after source events).summary.sampleCounts.get step
              + (StepTracker.after source events).summary.diagnostics.countP
                  (Diagnostic.orphanOf step)
          ∧ events.countP (fun e => e.2.begins step)
            = (StepTracker.after source events).summary.sampleCounts.get step
              + (StepTracker.after source events).summary.diagnostics.countP
                  (Diagnostic.replacedOf step)
              + (if (openSince step events).isSome then 1 else 0) := by
  have hdiagnostics :
      (StepTracker.after source events).summary.diagnostics = diagnosticsOf source events :=
    (paired_after source events).diagnostics_eq
  refine ⟨hdiagnostics, ?_⟩
  intro step
  rw [sampleCounts_after, hdiagnostics]
  exact ⟨end_balance source step events, begin_balance source step events⟩

end RunTimings
