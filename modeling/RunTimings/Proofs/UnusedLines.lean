import RunTimings.Measure.Waits
import RunTimings.Proofs.BoundRuns
import RunTimings.Proofs.ScanContinuation

/-! # Unused lines — what may be deleted from a log

    Each analysis uses some markers and hands on the others untouched.  A log
    without some of the lines that an analysis does not use gives the same
    result, except that later lines have smaller numbers, and a result may name
    lines.

    * `survivors` is a list without some of its lines, and `newNumber` the number
      of a line in it (`zipIdx_survivors`).
    * `Skips` relates what is found before and after: some unused markers are
      left out, and the others have their new numbers (`skips_ofLines`).
    * `Skips.scan_eq` — a visitor that ignores what is left out, and names lines only
      by their numbers, ends alike.
    * **`unused_lines_do_not_matter`** — the same for the step summary, the wait
      sums and the cycle durations, whether they are reached or not. -/

namespace RunTimings

open RunTimings.Text

/-! ## Lines left out -/

/-- The lines whose numbers are kept. -/
def survivors {α : Type} (kept : Nat → Bool) (lines : List α) : List α :=
  ((lines.zipIdx 1).filter fun line => kept line.2).map Prod.fst

/-- The number of a line among the survivors: one more than survive before it. -/
def newNumber (kept : Nat → Bool) (line : Nat) : Nat :=
  (List.range' 1 (line - 1)).countP kept + 1

theorem survivors_concat {α : Type} (kept : Nat → Bool) (lines : List α) (line : α) :
    survivors kept (lines ++ [line])
      = survivors kept lines ++ if kept (lines.length + 1) then [line] else [] := by
  simp only [survivors]
  rw [List.zipIdx_append, List.filter_append, List.map_append, Nat.add_comm 1]
  cases hkept : kept (lines.length + 1) with
  | false => simp [hkept]
  | true => simp [hkept]

/-- A line behind all others has as many before it as survive of them. -/
theorem newNumber_length {α : Type} (kept : Nat → Bool) (lines : List α) :
    newNumber kept (lines.length + 1) = (survivors kept lines).length + 1 := by
  have hcount : (survivors kept lines).length = (List.range' 1 lines.length).countP kept := by
    rw [survivors, List.length_map, ← List.countP_eq_length_filter, ← List.zipIdx_map_snd 1 lines,
      List.countP_map]
    rfl
  rw [newNumber, Nat.add_sub_cancel, hcount]

/-- **NEW NUMBERS**: the survivors, numbered again from one, are the kept lines
    with their new numbers. -/
theorem zipIdx_survivors {α : Type} (kept : Nat → Bool) (lines : List α) :
    (survivors kept lines).zipIdx 1
      = ((lines.zipIdx 1).filter fun line => kept line.2).map
          fun line => (line.1, newNumber kept line.2) := by
  induction lines using List.reverseRecOn with
  | nil => rfl
  | append_singleton lines line ih =>
      rw [survivors_concat, List.zipIdx_append, ih, List.zipIdx_append, List.filter_append,
        List.map_append, Nat.add_comm 1, ← newNumber_length, Nat.add_comm 1]
      cases hkept : kept (lines.length + 1) with
      | false => simp [hkept]
      | true => simp [hkept]

/-! ## What is found without them -/

/-- The same finding on a line with another number. -/
def Finding.renumbered (number : Nat → Nat) (finding : Finding) : Finding :=
  { finding with line := number finding.line }

/-- **SKIPPING**: some markers that are not used are left out, and the other
    findings are renumbered. -/
inductive Skips (used : Marker → Bool) (number : Nat → Nat) : List Finding → List Finding → Prop
  | nil : Skips used number [] []
  | keep (finding : Finding) {findings left : List Finding}
      (rest : Skips used number findings left) :
      Skips used number (finding :: findings) (finding.renumbered number :: left)
  | skip {line : Nat} {marker : Marker} (unused : used marker = false)
      {findings left : List Finding} (rest : Skips used number findings left) :
      Skips used number (⟨line, .ok marker⟩ :: findings) left

theorem Skips.append {used : Marker → Bool} {number : Nat → Nat}
    {findings left more moreLeft : List Finding} (h : Skips used number findings left)
    (hmore : Skips used number more moreLeft) :
    Skips used number (findings ++ more) (left ++ moreLeft) := by
  induction h with
  | nil => exact hmore
  | keep finding rest ih => exact .keep finding ih
  | skip unused rest ih => exact .skip unused ih

/-- Whether a line can be read and holds no marker that is used. -/
def unused (used : Marker → Bool) (content : List UInt8) : Bool :=
  match readLine content with
  | .error _ => false
  | .ok found => found.all fun marker => !used marker

/-- On a line that is not used there is nothing, or a marker to be left out. -/
theorem skips_unused {used : Marker → Bool} {content : List UInt8} (h : unused used content = true)
    (number : Nat → Nat) (line : Nat) :
    Skips used number (findOn (.ok content, line)).toList [] := by
  rw [findOn_ok]
  simp only [unused] at h
  cases hread : readLine content with
  | error error =>
      rw [hread] at h
      cases h
  | ok found =>
      rw [hread] at h
      cases found with
      | none => exact .nil
      | some marker => exact .skip (by simpa using h) .nil

/-- On a kept line the same is found, with its new number. -/
theorem skips_kept (used : Marker → Bool) (number : Nat → Nat)
    (content : Except FileError (List UInt8)) (line : Nat) :
    Skips used number (findOn (content, line)).toList (findOn (content, number line)).toList := by
  cases content with
  | error error => exact .keep _ .nil
  | ok bytes =>
      rw [findOn_ok, findOn_ok]
      cases readLine bytes with
      | error error => exact .keep _ .nil
      | ok found =>
          cases found with
          | none => exact .nil
          | some marker => exact .keep _ .nil

/-- The lines that are left out are not used. -/
def DropsUnused (used : Marker → Bool) (kept : Nat → Bool) (lines : List (List UInt8)) : Prop :=
  ∀ line ∈ lines.zipIdx 1, kept line.2 = false → unused used line.1 = true

theorem skips_survivors {used : Marker → Bool} {kept : Nat → Bool} {lines : List (List UInt8)}
    (h : DropsUnused used kept lines) :
    Skips used (newNumber kept) (foundOn (lines.map .ok))
      (foundOn ((survivors kept lines).map .ok)) := by
  induction lines using List.reverseRecOn with
  | nil => exact .nil
  | append_singleton lines content ih =>
      have hlast : (content, lines.length + 1) ∈ (lines ++ [content]).zipIdx 1 := by
        rw [List.zipIdx_append, Nat.add_comm 1]
        exact List.mem_append_right _ List.mem_cons_self
      have hlines : DropsUnused used kept lines := by
        intro line hmem
        refine h line ?_
        rw [List.zipIdx_append]
        exact List.mem_append_left _ hmem
      rw [List.map_append, survivors_concat, List.map_append]
      simp only [List.map_cons, List.map_nil]
      rw [foundOn_concat, List.length_map]
      cases hkept : kept (lines.length + 1) with
      | false =>
          rw [if_neg Bool.false_ne_true, List.map_nil, List.append_nil,
            ← List.append_nil (foundOn ((survivors kept lines).map .ok))]
          exact (ih hlines).append (skips_unused (h _ hlast hkept) _ _)
      | true =>
          rw [if_pos rfl, List.map_singleton, foundOn_concat, List.length_map, ← newNumber_length]
          exact (ih hlines).append (skips_kept used _ _ _)

/-- A log of whole lines, each ended by a newline, and the error that ends its
    reading, if one does. -/
def LogContent.ofLines (lines : List (List UInt8)) (fault : Option FileError) : LogContent :=
  ⟨lines.flatMap (· ++ [newline]), fault⟩

theorem pieces_ofLines {lines : List (List UInt8)} (h : ∀ line ∈ lines, newline ∉ line) :
    pieces newline (lines.flatMap (· ++ [newline])) = lines ++ [[]] := by
  induction lines with
  | nil => rfl
  | cons line lines ih =>
      obtain ⟨hline, hlines⟩ := List.forall_mem_cons.mp h
      rw [List.flatMap_cons, List.append_assoc, List.singleton_append,
        pieces_append_separator hline, ih hlines, List.cons_append]

theorem lines_ofLines {lines : List (List UInt8)} (h : ∀ line ∈ lines, newline ∉ line)
    (fault : Option FileError) :
    (LogContent.ofLines lines fault).lines = lines.map .ok ++ fault.toList.map .error := by
  cases fault with
  | none =>
      rw [LogContent.ofLines, lines_whole]
      simp only [linesOf]
      rw [pieces_ofLines h, if_pos List.getLast?_concat, List.dropLast_concat]
      exact (List.append_nil _).symm
  | some error =>
      rw [LogContent.ofLines, lines_broken, pieces_ofLines h, List.dropLast_concat]
      rfl

theorem mem_of_mem_survivors {α : Type} {kept : Nat → Bool} {lines : List α} {line : α}
    (h : line ∈ survivors kept lines) : line ∈ lines := by
  obtain ⟨numbered, hmem, rfl⟩ := List.mem_map.mp h
  exact List.fst_mem_of_mem_zipIdx (List.mem_filter.mp hmem).1

/-- **WHAT IS FOUND** in the shorter log is what is found in the longer one,
    without some unused markers and with the new numbers. -/
theorem skips_ofLines {used : Marker → Bool} {kept : Nat → Bool} {lines : List (List UInt8)}
    (hwhole : ∀ line ∈ lines, newline ∉ line) (h : DropsUnused used kept lines)
    (fault : Option FileError) :
    Skips used (newNumber kept) (LogContent.ofLines lines fault).findings
      (LogContent.ofLines (survivors kept lines) fault).findings := by
  have hshort : ∀ line ∈ survivors kept lines, newline ∉ line :=
    fun line hmem => hwhole line (mem_of_mem_survivors hmem)
  rw [findings_eq, findings_eq, lines_ofLines hwhole, lines_ofLines hshort]
  cases fault with
  | none =>
      simp only [Option.toList_none, List.map_nil, List.append_nil]
      exact skips_survivors h
  | some error =>
      simp only [Option.toList_some, List.map_cons, List.map_nil]
      rw [foundOn_concat, foundOn_concat, List.length_map, List.length_map, ← newNumber_length]
      exact (skips_survivors h).append (skips_kept used _ _ _)

/-! ## Scans without them -/

/-- A progress with its state and its reason to stop changed. -/
def Progress.map {σ τ ε δ : Type} (state : σ → τ) (stop : ε → δ) (p : Progress σ ε) :
    Progress τ δ :=
  ⟨state p.state, p.stop.map stop⟩

/-- A visitor to which numbers of lines are mere names, and which ignores markers
    that are not used. -/
structure NamesLines {σ ε : Type} (refuse : Nat → LineFault → ε)
    (visit : Nat → Marker → σ → Progress σ ε) (used : Marker → Bool) (number : Nat → Nat)
    (carry : σ → σ) (tell : ε → ε) : Prop where
  refuses : ∀ line fault, refuse (number line) fault = tell (refuse line fault)
  visits : ∀ line marker state,
    visit (number line) marker (carry state) = (visit line marker state).map carry tell
  ignores : ∀ line marker state, used marker = false → visit line marker state = ⟨state, none⟩

/-- **SCANS WITHOUT THEM** end as before, but for the numbers. -/
theorem Skips.scan_eq {σ ε : Type} {refuse : Nat → LineFault → ε}
    {visit : Nat → Marker → σ → Progress σ ε} {used : Marker → Bool} {number : Nat → Nat}
    {carry : σ → σ} {tell : ε → ε} (hnames : NamesLines refuse visit used number carry tell)
    {findings left : List Finding} (h : Skips used number findings left) (start : σ) :
    scan refuse visit left (carry start)
      = (scan refuse visit findings start).map carry tell := by
  induction h generalizing start with
  | nil => rfl
  | keep finding rest ih =>
      obtain ⟨line, fault | marker⟩ := finding
      · show Progress.mk (carry start) (some (refuse (number line) fault)) = _
        rw [hnames.refuses]
        rfl
      · have hvisit := hnames.visits line marker start
        show scan refuse visit (⟨number line, .ok marker⟩ :: _) (carry start) = _
        cases hstop : (visit line marker start).stop with
        | none =>
            have hgoing : (visit (number line) marker (carry start)).stop = none := by
              rw [hvisit, Progress.map, hstop]
              rfl
            rw [scan_going _ _ hgoing, scan_going _ _ hstop, hvisit]
            exact ih (visit line marker start).state
        | some reason =>
            have hstopping : (visit (number line) marker (carry start)).stop
                = some (tell reason) := by
              rw [hvisit, Progress.map, hstop]
              rfl
            rw [scan_stopping _ _ hstopping, scan_stopping _ _ hstop, hvisit]
  | @skip line marker unused findings left rest ih =>
      have hignores := hnames.ignores line marker start unused
      have hgoing : (visit line marker start).stop = none := by rw [hignores]
      rw [scan_going _ _ hgoing, hignores]
      exact ih start

/-! ## The three analyses -/

/-- The failure with the number of its line changed, if it names one. -/
def Failure.renumbered (number : Nat → Nat) : Failure → Failure
  | .stepOutOfRange source line step => .stepOutOfRange source (number line) step
  | .doesNotFit source line field numeral => .doesNotFit source (number line) field numeral
  | .cycleOutOfRange source line cycle total => .cycleOutOfRange source (number line) cycle total
  | .waitOverflow source line cycle => .waitOverflow source (number line) cycle
  | .unread source line error => .unread source (number line) error
  | failure => failure

/-- The diagnostic with the number of its line changed. -/
def Diagnostic.renumbered (number : Nat → Nat) (diagnostic : Diagnostic) : Diagnostic :=
  { diagnostic with line := number diagnostic.line }

/-- The summary with the numbers of the lines in its diagnostics changed. -/
def StepSummary.renumbered (number : Nat → Nat) (summary : StepSummary) : StepSummary :=
  { summary with diagnostics := summary.diagnostics.map (Diagnostic.renumbered number) }

/-- The tracker with the numbers of the lines on its record changed. -/
def StepTracker.renumbered (number : Nat → Nat) (tracker : StepTracker) : StepTracker :=
  { tracker with latestFirst := tracker.latestFirst.map (Diagnostic.renumbered number) }

theorem ofLine_renumbered (source : String) (number : Nat → Nat) (line : Nat) (fault : LineFault) :
    Failure.ofLine source (number line) fault
      = (Failure.ofLine source line fault).renumbered number := by
  cases fault with
  | unreadable error => rfl
  | unusable error => cases error <;> rfl

/-- The markers that a step analysis uses. -/
def Marker.isStep : Marker → Bool
  | .beginStep _ _ => true
  | .endStep _ _ => true
  | _ => false

/-- The markers that an analysis of waits uses. -/
def Marker.isWait : Marker → Bool
  | .waiting _ _ => true
  | _ => false

/-- The markers that an analysis of durations uses. -/
def Marker.isBound : Marker → Bool
  | .startCycle _ _ => true
  | .endId _ _ => true
  | _ => false

/-- A change on a line puts the number of the line on record, and nothing else. -/
theorem StepTracker.change_renumbered (number : Nat → Nat) (tracker : StepTracker) (line : Nat)
    (step : StepIndex) (onTrack : StepTrack → StepTrack × Option Problem) :
    (tracker.renumbered number).change (number line) step onTrack
      = (tracker.change line step onTrack).renumbered number := by
  simp only [StepTracker.change, StepTracker.renumbered]
  generalize onTrack (tracker.tracks.get step) = next
  obtain ⟨track, problem⟩ := next
  cases problem with
  | none => rfl
  | some problem => rfl

/-- **ONE MARKER** on a line with another number: the same is put on record, with
    the other number. -/
theorem StepTracker.observe_renumbered (number : Nat → Nat) (tracker : StepTracker) (line : Nat)
    (marker : Marker) :
    (tracker.renumbered number).observe (number line) marker
      = (tracker.observe line marker).renumbered number := by
  cases marker with
  | beginStep step timestamp =>
      exact tracker.change_renumbered number line step (StepTrack.onBegin timestamp)
  | endStep step timestamp =>
      exact tracker.change_renumbered number line step (StepTrack.onEnd timestamp)
  | _ => rfl

theorem namesLines_steps (source : String) (number : Nat → Nat) :
    NamesLines (Failure.ofLine source)
      (fun line marker (tracker : StepTracker) => ⟨tracker.observe line marker, none⟩)
      Marker.isStep number (StepTracker.renumbered number) (Failure.renumbered number) where
  refuses := ofLine_renumbered source number
  visits := by
    intro line marker tracker
    exact congrArg (Progress.mk · none) (tracker.observe_renumbered number line marker)
  ignores := by
    intro line marker tracker hunused
    cases marker with
    | beginStep step timestamp => cases hunused
    | endStep step timestamp => cases hunused
    | _ => rfl

theorem namesLines_waits (source : String) (cycles : Nat) (number : Nat → Nat) :
    NamesLines (Failure.ofLine source) (@WaitSums.observe cycles source) Marker.isWait
      number id (Failure.renumbered number) where
  refuses := ofLine_renumbered source number
  visits := by
    intro line marker waits
    cases marker with
    | waiting cycle wait =>
        simp only [WaitSums.observe, id]
        by_cases hknown : cycle < cycles
        · rw [dif_pos hknown, dif_pos hknown]
          by_cases hfits : Signed64 (waits.sums[cycle] + wait)
          · rw [if_pos hfits, if_pos hfits]
            rfl
          · rw [if_neg hfits, if_neg hfits]
            rfl
        · rw [dif_neg hknown, dif_neg hknown]
          rfl
    | _ => rfl
  ignores := by
    intro line marker waits hunused
    cases marker with
    | waiting cycle wait => cases hunused
    | _ => rfl

theorem namesLines_bounds (source : String) (cycles : Nat) (number : Nat → Nat) :
    NamesLines (Failure.ofLine source) (@CycleBounds.observe cycles source)
      Marker.isBound number id (Failure.renumbered number) where
  refuses := ofLine_renumbered source number
  visits := by
    intro line marker bounds
    cases marker with
    | startCycle cycle timestamp =>
        rw [CycleBounds.observe_start, CycleBounds.observe_start]
        by_cases hknown : cycle < cycles
        · rw [dif_pos hknown, dif_pos hknown]
          rfl
        · rw [dif_neg hknown, dif_neg hknown]
          rfl
    | endId cycle timestamp =>
        rw [CycleBounds.observe_end, CycleBounds.observe_end]
        by_cases hknown : cycle < cycles
        · rw [dif_pos hknown, dif_pos hknown]
          rfl
        · rw [dif_neg hknown, dif_neg hknown]
          rfl
    | _ => rfl
  ignores := by
    intro line marker bounds hunused
    cases marker with
    | startCycle cycle timestamp => cases hunused
    | endId cycle timestamp => cases hunused
    | _ => rfl

theorem StepTracker.summary_renumbered (number : Nat → Nat) (tracker : StepTracker) :
    (tracker.renumbered number).summary = tracker.summary.renumbered number := by
  have hdiagnostics : (tracker.renumbered number).diagnostics
      = tracker.diagnostics.map (Diagnostic.renumbered number) := List.map_reverse.symm
  simp only [StepTracker.summary, StepSummary.renumbered]
  rw [hdiagnostics]
  rfl

theorem summariseSteps_of_skips (source : String) {number : Nat → Nat} {log short : LogContent}
    (h : Skips Marker.isStep number log.findings short.findings) :
    summariseSteps source short
      = ((summariseSteps source log).map (StepSummary.renumbered number)).mapError
          (Failure.renumbered number) := by
  have hscan : trackSteps source short
      = (trackSteps source log).map (StepTracker.renumbered number) (Failure.renumbered number) :=
    h.scan_eq (namesLines_steps source number) { source }
  simp only [summariseSteps]
  rw [hscan]
  generalize trackSteps source log = tracked
  obtain ⟨tracker, stop⟩ := tracked
  cases stop with
  | none => exact congrArg Except.ok (tracker.summary_renumbered number)
  | some failure => rfl

theorem sumWaits_of_skips (source : String) (cycles : Nat) {number : Nat → Nat}
    {log short : LogContent} (h : Skips Marker.isWait number log.findings short.findings) :
    sumWaits source cycles short
      = (sumWaits source cycles log).mapError (Failure.renumbered number) := by
  have hscan := h.scan_eq (namesLines_waits source cycles number) (WaitSums.zero cycles)
  rw [id] at hscan
  simp only [sumWaits]
  rw [hscan]
  generalize scan (Failure.ofLine source) (WaitSums.observe source) log.findings
    (WaitSums.zero cycles) = summed
  obtain ⟨waits, stop⟩ := summed
  cases stop with
  | none => rfl
  | some failure => rfl

/-- A bound that is missing is missing on no line. -/
theorem CycleBounds.durations_renumbered {cycles : Nat} (source : String) (number : Nat → Nat)
    (bounds : CycleBounds cycles) :
    bounds.durations source = (bounds.durations source).mapError (Failure.renumbered number) := by
  refine mapM_mapError _ fun cycle => ?_
  simp only [cycleDuration]
  cases usable (bounds.starts.get cycle) with
  | none => rfl
  | some start =>
      cases usable (bounds.finishes.get cycle) with
      | none => rfl
      | some finish => rfl

theorem measureCycles_of_skips (source : String) (cycles : Nat) {number : Nat → Nat}
    {log short : LogContent} (h : Skips Marker.isBound number log.findings short.findings) :
    measureCycles source cycles short
      = (measureCycles source cycles log).mapError (Failure.renumbered number) := by
  have hscan := h.scan_eq (namesLines_bounds source cycles number) (CycleBounds.unset cycles)
  rw [id] at hscan
  simp only [measureCycles]
  rw [hscan]
  generalize scan (Failure.ofLine source) (CycleBounds.observe source) log.findings
    (CycleBounds.unset cycles) = bounded
  obtain ⟨bounds, stop⟩ := bounded
  cases stop with
  | none => exact bounds.durations_renumbered source number
  | some failure => rfl

/-- **UNUSED LINES**: a log of whole lines without some that an analysis does not
    use gives the analysis the same result, be it a failure or not, with the new
    numbers of the lines that it names; these are the numbers that the lines have
    in the shorter log. -/
theorem unused_lines_do_not_matter (source : String) (cycles : Nat) (fault : Option FileError)
    (kept : Nat → Bool) (lines : List (List UInt8)) (hwhole : ∀ line ∈ lines, newline ∉ line) :
    (DropsUnused Marker.isStep kept lines →
        summariseSteps source (.ofLines (survivors kept lines) fault)
          = ((summariseSteps source (.ofLines lines fault)).map
              (StepSummary.renumbered (newNumber kept))).mapError
                (Failure.renumbered (newNumber kept)))
      ∧ (DropsUnused Marker.isWait kept lines →
        sumWaits source cycles (.ofLines (survivors kept lines) fault)
          = (sumWaits source cycles (.ofLines lines fault)).mapError
              (Failure.renumbered (newNumber kept)))
      ∧ (DropsUnused Marker.isBound kept lines →
        measureCycles source cycles (.ofLines (survivors kept lines) fault)
          = (measureCycles source cycles (.ofLines lines fault)).mapError
              (Failure.renumbered (newNumber kept)))
      ∧ (survivors kept lines).zipIdx 1
        = ((lines.zipIdx 1).filter fun line => kept line.2).map
            fun line => (line.1, newNumber kept line.2) :=
  ⟨fun h => summariseSteps_of_skips source (skips_ofLines hwhole h fault),
    fun h => sumWaits_of_skips source cycles (skips_ofLines hwhole h fault),
    fun h => measureCycles_of_skips source cycles (skips_ofLines hwhole h fault),
    zipIdx_survivors kept lines⟩

/-- Four lines of an asker, of which the first and the third bound no cycle. -/
def mixedLines : List (List UInt8) :=
  ["Waiting, id time: 1_1test5 3", "Start Cycle 0: 7", "all quiet", "Start Cycle 5: 9"].map
    fun line => Utf8.encode line.toList

/-- Without them the cycle that is not asked for is refused two lines further up. -/
theorem failure_without_unused_mixedLines :
    measureCycles "asker" 1 (.ofLines (survivors (· % 2 == 0) mixedLines) none)
      = .error (.cycleOutOfRange "asker" 2 5 1) := by
  have hwhole : ∀ line ∈ mixedLines, newline ∉ line := by decide +kernel
  have hdrops : DropsUnused Marker.isBound (· % 2 == 0) mixedLines := by
    simp only [DropsUnused]
    decide +kernel
  rw [(unused_lines_do_not_matter "asker" 1 none _ mixedLines hwhole).2.2.1 hdrops]
  decide +kernel

end RunTimings
