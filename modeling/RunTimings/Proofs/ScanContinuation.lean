import RunTimings.Proofs.LineNumbers
import RunTimings.Proofs.StepLogs

/-! # Scans of a log in two parts — stopping early, or going on

    A log that is cut behind a newline is scanned as its two parts, one after
    the other, by ANY visitor: it may keep a state and may stop at any marker.

    * `recorded` is a visitor with a record of its visits, so `visits` is what a
      scan hands to the visitor, marker by marker.
    * `scan_later` / `visits_later` — findings further down are scanned as they
      would be at the top of a log, with greater numbers.
    * `visits_split` — a scan hands on the markers in order, and ends with the
      findings, with the first fault, or with a visit that stops it.
    * `LogContent.Shows` says what is found in a log by its bytes alone, with the
      number of newlines before; `Numbered` says by this which markers a scan
      visits, and where it ends.
    * `scan_in_two_parts` — the law of the two parts, and the numbers of the
      lines in every scan. -/

namespace RunTimings

open RunTimings.Text

variable {σ ε : Type}

/-! ## The record of the visits -/

/-- The visitor, with a record of all its visits. -/
def recorded (visit : Nat → Marker → σ → Progress σ ε) (line : Nat) (marker : Marker)
    (past : σ × List (Nat × Marker)) : Progress (σ × List (Nat × Marker)) ε :=
  ⟨((visit line marker past.1).state, past.2 ++ [(line, marker)]),
    (visit line marker past.1).stop⟩

/-- The visits that a scan makes, in order. -/
def visits (refuse : Nat → LineFault → ε) (visit : Nat → Marker → σ → Progress σ ε)
    (findings : List Finding) (start : σ) : List (Nat × Marker) :=
  (scan refuse (recorded visit) findings (start, [])).state.2

/-- The state of a visitor after some visits. -/
def stateAfter (visit : Nat → Marker → σ → Progress σ ε) (start : σ)
    (past : List (Nat × Marker)) : σ :=
  past.foldl (fun state event => (visit event.1 event.2 state).state) start

theorem stateAfter_concat (visit : Nat → Marker → σ → Progress σ ε) (start : σ)
    (past : List (Nat × Marker)) (line : Nat) (marker : Marker) :
    stateAfter visit start (past ++ [(line, marker)])
      = (visit line marker (stateAfter visit start past)).state := by
  simp only [stateAfter]
  rw [List.foldl_append]
  rfl

variable (refuse : Nat → LineFault → ε) (visit : Nat → Marker → σ → Progress σ ε)

theorem scan_fault_cons (line : Nat) (fault : LineFault) (rest : List Finding) (state : σ) :
    scan refuse visit (⟨line, .error fault⟩ :: rest) state
      = ⟨state, some (refuse line fault)⟩ := rfl

/-- A visit that does not stop hands its state on. -/
theorem scan_going {line : Nat} {marker : Marker} {state : σ}
    (h : (visit line marker state).stop = none) (rest : List Finding) :
    scan refuse visit (⟨line, .ok marker⟩ :: rest) state
      = scan refuse visit rest (visit line marker state).state := by
  rw [scan]
  generalize visit line marker state = next at h ⊢
  obtain ⟨reached, stop⟩ := next
  cases h
  rfl

/-- A visit that stops is the last. -/
theorem scan_stopping {line : Nat} {marker : Marker} {state : σ} {reason : ε}
    (h : (visit line marker state).stop = some reason) (rest : List Finding) :
    scan refuse visit (⟨line, .ok marker⟩ :: rest) state = visit line marker state := by
  rw [scan]
  generalize visit line marker state = next at h ⊢
  obtain ⟨reached, stop⟩ := next
  cases h
  rfl

/-- The record does not disturb a scan, and goes on from what it holds. -/
theorem scan_recorded (findings : List Finding) (start : σ) (past : List (Nat × Marker)) :
    scan refuse (recorded visit) findings (start, past)
      = ⟨((scan refuse visit findings start).state, past ++ visits refuse visit findings start),
          (scan refuse visit findings start).stop⟩ := by
  induction findings generalizing start past with
  | nil => simp [visits, scan]
  | cons finding rest ih =>
      obtain ⟨line, fault | marker⟩ := finding
      · simp [visits, scan_fault_cons]
      · -- both records, the one from `past` and the one from nothing, gain this visit
        simp only [visits]
        cases hstop : (visit line marker start).stop with
        | none =>
            have hrecord : ∀ past, (recorded visit line marker (start, past)).stop = none :=
              fun _ => hstop
            rw [scan_going _ _ (hrecord past), scan_going _ _ (hrecord []), scan_going _ _ hstop]
            simp only [recorded]
            rw [ih, ih]
            simp
        | some reason =>
            have hrecord : ∀ past, (recorded visit line marker (start, past)).stop = some reason :=
              fun _ => hstop
            rw [scan_stopping _ _ (hrecord past), scan_stopping _ _ (hrecord []),
              scan_stopping _ _ hstop]
            rfl

theorem visits_going {line : Nat} {marker : Marker} {start : σ}
    (h : (visit line marker start).stop = none) (rest : List Finding) :
    visits refuse visit (⟨line, .ok marker⟩ :: rest) start
      = (line, marker) :: visits refuse visit rest (visit line marker start).state := by
  have hrecord : (recorded visit line marker (start, [])).stop = none := h
  rw [visits, scan_going _ _ hrecord]
  simp only [recorded]
  rw [scan_recorded]
  rfl

theorem visits_stopping {line : Nat} {marker : Marker} {start : σ} {reason : ε}
    (h : (visit line marker start).stop = some reason) (rest : List Finding) :
    visits refuse visit (⟨line, .ok marker⟩ :: rest) start = [(line, marker)] := by
  have hrecord : (recorded visit line marker (start, [])).stop = some reason := h
  rw [visits, scan_stopping _ _ hrecord]
  rfl

/-- The visits of a scan go on with those of the rest, unless it stops. -/
theorem visits_append (before after : List Finding) (start : σ) :
    visits refuse visit (before ++ after) start
      = visits refuse visit before start
        ++ match (scan refuse visit before start).stop with
          | none => visits refuse visit after (scan refuse visit before start).state
          | some _ => [] := by
  rw [visits, scan_append, scan_recorded, List.nil_append]
  cases (scan refuse visit before start).stop with
  | none =>
      rw [Progress.andThen_going, scan_recorded]
  | some reason => exact (List.append_nil _).symm

/-! ## Findings further down -/

/-- What is said of a line, said of the line that is so many lines further down. -/
def below {α : Type} (lines : Nat) (said : Nat → α) (line : Nat) : α :=
  said (line + lines)

/-- A finding further down is handed on with its greater number. -/
theorem scan_later (lines : Nat) (findings : List Finding) (start : σ) :
    scan refuse visit (findings.map (.later lines)) start
      = scan (below lines refuse) (below lines visit) findings start := by
  induction findings generalizing start with
  | nil => rfl
  | cons finding rest ih =>
      obtain ⟨line, fault | marker⟩ := finding
      · rfl
      · show scan refuse visit (⟨line + lines, .ok marker⟩ :: _) start = _
        cases hstop : (visit (line + lines) marker start).stop with
        | none =>
            rw [scan_going _ _ hstop, ih]
            exact (scan_going _ (below lines visit) hstop rest).symm
        | some reason =>
            rw [scan_stopping _ _ hstop]
            exact (scan_stopping _ (below lines visit) hstop rest).symm

/-- The visits are the same, with greater numbers. -/
theorem visits_later (lines : Nat) (findings : List Finding) (start : σ) :
    visits refuse visit (findings.map (.later lines)) start
      = (visits (below lines refuse) (below lines visit) findings start).map
          fun event => (event.1 + lines, event.2) := by
  induction findings generalizing start with
  | nil => rfl
  | cons finding rest ih =>
      obtain ⟨line, fault | marker⟩ := finding
      · rfl
      · show visits refuse visit (⟨line + lines, .ok marker⟩ :: _) start = _
        cases hstop : (visit (line + lines) marker start).stop with
        | none =>
            rw [visits_going _ _ hstop, ih, visits_going _ (below lines visit) hstop rest,
              List.map_cons]
            rfl
        | some reason =>
            rw [visits_stopping _ _ hstop, visits_stopping _ (below lines visit) hstop rest]
            rfl

/-! ## How a scan ends -/

/-- Why a scan stops after some visits: at a fault, which comes after all that
    has been taken, or at the last visit. -/
inductive StopsFor (start : σ) (past : List (Nat × Marker)) (left : List Finding) : ε → Prop where
  | fault {line : Nat} {fault : LineFault} {rest : List Finding}
      (next : left = ⟨line, .error fault⟩ :: rest) : StopsFor start past left (refuse line fault)
  | visit (earlier : List (Nat × Marker)) {line : Nat} {marker : Marker} {reason : ε}
      (last : past = earlier ++ [(line, marker)])
      (stops : (visit line marker (stateAfter visit start earlier)).stop = some reason) :
      StopsFor start past left reason

/-- **VISITS**: a scan takes some findings from the front, none of them a fault, and
    visits the markers that they are, in order; it takes all findings unless it has a
    reason to stop. -/
theorem visits_split (findings : List Finding) (start : σ) :
    ∃ taken left, findings = taken ++ left
      ∧ visits refuse visit findings start = eventsAmong taken
      ∧ (∀ line fault, ⟨line, .error fault⟩ ∉ taken)
      ∧ ((scan refuse visit findings start).stop = none → left = [])
      ∧ ∀ reason, (scan refuse visit findings start).stop = some reason →
        StopsFor refuse visit start (visits refuse visit findings start) left reason := by
  induction findings generalizing start with
  | nil =>
      refine ⟨[], [], rfl, rfl, fun _ _ hmem => absurd hmem List.not_mem_nil, fun _ => rfl, ?_⟩
      intro reason heq
      cases heq
  | cons finding rest ih =>
      obtain ⟨line, fault | marker⟩ := finding
      · refine ⟨[], _, rfl, rfl, fun _ _ hmem => absurd hmem List.not_mem_nil, ?_, ?_⟩
        · intro hnone
          cases hnone
        · intro reason heq
          obtain rfl := Option.some.inj heq
          exact .fault rfl
      · cases hstop : (visit line marker start).stop with
        | none =>
            obtain ⟨taken, left, heq, hvisits, hfaultless, hall, hreason⟩ :=
              ih (visit line marker start).state
            rw [scan_going _ _ hstop, visits_going _ _ hstop]
            refine ⟨⟨line, .ok marker⟩ :: taken, left, by rw [heq]; rfl, ?_, ?_, hall, ?_⟩
            · rw [hvisits]
              rfl
            · intro number fault hmem
              rcases List.mem_cons.mp hmem with hfirst | hmem
              · cases hfirst
              · exact hfaultless number fault hmem
            · intro reason hend
              cases hreason reason hend with
              | fault next => exact .fault next
              | visit earlier last stops =>
                  exact .visit ((line, marker) :: earlier) (by rw [last]; rfl) stops
        | some reason =>
            rw [scan_stopping _ _ hstop, visits_stopping _ _ hstop]
            refine ⟨[⟨line, .ok marker⟩], rest, rfl, rfl, ?_, ?_, ?_⟩
            · intro number fault hmem
              cases List.mem_singleton.mp hmem
            · intro hnone
              cases hnone.symm.trans hstop
            · intro other hend
              exact .visit [] rfl hend

/-- A visitor is where its visits have led it. -/
theorem state_scan (findings : List Finding) (start : σ) :
    (scan refuse visit findings start).state
      = stateAfter visit start (visits refuse visit findings start) := by
  induction findings generalizing start with
  | nil => rfl
  | cons finding rest ih =>
      obtain ⟨line, fault | marker⟩ := finding
      · rfl
      · cases hstop : (visit line marker start).stop with
        | none =>
            rw [scan_going _ _ hstop, visits_going _ _ hstop, ih]
            rfl
        | some reason =>
            rw [scan_stopping _ _ hstop, visits_stopping _ _ hstop]
            rfl

/-- **OBEYED**: a visit that stops is the last, and its reason is that of the scan. -/
theorem stop_of_visit {findings : List Finding} {start : σ} {earlier later : List (Nat × Marker)}
    {line : Nat} {marker : Marker} {reason : ε}
    (h : visits refuse visit findings start = earlier ++ (line, marker) :: later)
    (hreason : (visit line marker (stateAfter visit start earlier)).stop = some reason) :
    later = [] ∧ (scan refuse visit findings start).stop = some reason := by
  induction findings generalizing start earlier with
  | nil =>
      have hnone : [] = earlier ++ (line, marker) :: later := h
      simp at hnone
  | cons finding rest ih =>
      obtain ⟨number, fault | first⟩ := finding
      · have hnone : [] = earlier ++ (line, marker) :: later := h
        simp at hnone
      · cases hstop : (visit number first start).stop with
        | none =>
            rw [visits_going _ _ hstop] at h
            rw [scan_going _ _ hstop]
            cases earlier with
            | nil =>
                cases h
                cases hstop.symm.trans hreason
            | cons event earlier =>
                obtain ⟨rfl, hrest⟩ := List.cons.inj h
                exact ih hrest hreason
        | some other =>
            rw [visits_stopping _ _ hstop] at h
            rw [scan_stopping _ _ hstop]
            cases earlier with
            | nil =>
                cases h
                exact ⟨rfl, hreason⟩
            | cons event earlier =>
                have hnone : [] = earlier ++ (line, marker) :: later := (List.cons.inj h).2
                simp at hnone

/-! ## The numbers of the lines -/

/-- **WHAT A LOG SHOWS**: a marker or a fault on one of its lines, or the error
    that ends the reading; the number is that of the newlines before, plus
    one. -/
inductive LogContent.Shows (log : LogContent) : Nat → Except LineFault Marker → Prop where
  | marker {before content : List UInt8} {marker : Marker}
      (line : log.HasLine before content) (reads : readLine content = .ok (some marker)) :
      log.Shows (before.count newline + 1) (.ok marker)
  | unusable {before content : List UInt8} {error : MarkerError}
      (line : log.HasLine before content) (reads : readLine content = .error error) :
      log.Shows (before.count newline + 1) (.error (.unusable error))
  | unreadable {error : FileError} (breaks : log.fault = some error) :
      log.Shows (log.bytes.count newline + 1) (.error (.unreadable error))

/-- What is found in a log is what the log shows. -/
theorem mem_findings_iff_shows {log : LogContent} {line : Nat} {found : Except LineFault Marker} :
    ⟨line, found⟩ ∈ log.findings ↔ log.Shows line found := by
  rw [mem_findings_iff_hasLine]
  constructor
  · rintro (⟨before, content, hline, hfound⟩ | ⟨error, hfault, heq⟩)
    · rw [findOn_ok] at hfound
      cases hread : readLine content with
      | error error =>
          rw [hread] at hfound
          cases hfound
          exact .unusable hline hread
      | ok found =>
          rw [hread] at hfound
          cases found with
          | none => cases hfound
          | some marker =>
              cases hfound
              exact .marker hline hread
    · cases heq
      exact .unreadable hfault
  · intro h
    cases h with
    | marker hline hread => exact .inl ⟨_, _, hline, by rw [findOn_ok, hread]⟩
    | unusable hline hread => exact .inl ⟨_, _, hline, by rw [findOn_ok, hread]⟩
    | unreadable hfault => exact .inr ⟨_, hfault, rfl⟩

/-- A visit is a finding. -/
theorem mem_eventsAmong {findings : List Finding} {line : Nat} {marker : Marker} :
    (line, marker) ∈ eventsAmong findings ↔ ⟨line, .ok marker⟩ ∈ findings := by
  simp only [eventsAmong, List.mem_filterMap, Option.map_eq_some_iff]
  constructor
  · rintro ⟨⟨number, found⟩, hmem, _, hmarker, heq⟩
    cases heq
    cases found with
    | error fault => cases hmarker
    | ok found => cases hmarker; exact hmem
  · intro hmem
    exact ⟨_, hmem, marker, rfl, rfl⟩

/-- Whatever the visitor, it visits what is found. -/
theorem mem_findings_of_mem_visits {findings : List Finding} {start : σ} {event : Nat × Marker}
    (h : event ∈ visits refuse visit findings start) : ⟨event.1, .ok event.2⟩ ∈ findings := by
  obtain ⟨taken, left, hsplit, hvisits, -, -, -⟩ := visits_split refuse visit findings start
  rw [hvisits, mem_eventsAmong] at h
  exact hsplit ▸ List.mem_append_left left h

/-- Visits of findings with increasing numbers have increasing numbers. -/
theorem eventsAmong_increasing {findings : List Finding}
    (h : findings.Pairwise fun earlier later => earlier.line < later.line) :
    (eventsAmong findings).Pairwise fun earlier later => earlier.1 < later.1 := by
  refine List.Pairwise.filterMap _ ?_ h
  intro earlier later hlt event hevent event' hevent'
  obtain ⟨_, -, rfl⟩ := Option.map_eq_some_iff.mp hevent
  obtain ⟨_, -, rfl⟩ := Option.map_eq_some_iff.mp hevent'
  exact hlt

/-- All that a log shows above a line has been visited, and no fault is among it. -/
structure LogContent.ReadUpTo (log : LogContent) (line : Nat) (past : List (Nat × Marker)) :
    Prop where
  visited : ∀ number marker, log.Shows number (.ok marker) → number < line →
    (number, marker) ∈ past
  faultless : ∀ number fault, log.Shows number (.error fault) → line ≤ number

/-- **NUMBERED**: a scan of a log visits markers that the log shows, in the order of
    their lines, and leads the visitor from one to the next.  A visit that stops ends
    it; without a reason to stop it visits all markers, and there is no fault; if it
    stops, it is at the first fault that the log shows, or at its last visit, and all
    markers above that line are visited. -/
structure Numbered (log : LogContent) (start : σ) : Prop where
  visited : ∀ event ∈ visits refuse visit log.findings start, log.Shows event.1 (.ok event.2)
  increasing : (visits refuse visit log.findings start).Pairwise
    fun earlier later => earlier.1 < later.1
  reached : (scan refuse visit log.findings start).state
    = stateAfter visit start (visits refuse visit log.findings start)
  obeyed : ∀ earlier line marker later reason,
    visits refuse visit log.findings start = earlier ++ (line, marker) :: later →
    (visit line marker (stateAfter visit start earlier)).stop = some reason →
    later = [] ∧ (scan refuse visit log.findings start).stop = some reason
  finished : (scan refuse visit log.findings start).stop = none →
    (∀ line marker, log.Shows line (.ok marker) →
      (line, marker) ∈ visits refuse visit log.findings start)
    ∧ ∀ line fault, ¬ log.Shows line (.error fault)
  stopped : ∀ reason, (scan refuse visit log.findings start).stop = some reason →
    (∃ line fault, log.Shows line (.error fault) ∧ reason = refuse line fault
      ∧ (∀ event ∈ visits refuse visit log.findings start, event.1 < line)
      ∧ log.ReadUpTo line (visits refuse visit log.findings start))
    ∨ ∃ earlier line marker,
      visits refuse visit log.findings start = earlier ++ [(line, marker)]
        ∧ (visit line marker (stateAfter visit start earlier)).stop = some reason
        ∧ log.ReadUpTo line earlier

/-- Findings that are cut in two, none of the first of them a fault: above a line at or
    behind the cut, only the first are shown. -/
theorem readUpTo_of_split {log : LogContent} {taken left : List Finding} {line : Nat}
    (hsplit : log.findings = taken ++ left)
    (hfaultless : ∀ line fault, ⟨line, .error fault⟩ ∉ taken)
    (hbehind : ∀ finding ∈ left, line ≤ finding.line) :
    log.ReadUpTo line (eventsAmong taken) := by
  have hshown {number : Nat} {found : Except LineFault Marker} (h : log.Shows number found) :
      ⟨number, found⟩ ∈ taken ∨ line ≤ number := by
    have hmem := mem_findings_iff_shows.mpr h
    rw [hsplit] at hmem
    exact (List.mem_append.mp hmem).imp id fun hleft => hbehind _ hleft
  constructor
  · intro number marker h hlt
    exact mem_eventsAmong.mpr ((hshown h).resolve_right (Nat.not_le.mpr hlt))
  · intro number fault h
    exact (hshown h).resolve_left (hfaultless number fault)

/-- Every scan of a log is numbered. -/
theorem numbered_scan (log : LogContent) (start : σ) : Numbered refuse visit log start := by
  obtain ⟨taken, left, hsplit, hvisits, hfaultless, hall, hstops⟩ :=
    visits_split refuse visit log.findings start
  have hnumbers := findings_increasing log
  rw [hsplit, List.pairwise_append] at hnumbers
  obtain ⟨htaken, hleft, hcross⟩ := hnumbers
  refine ⟨?_, hvisits ▸ eventsAmong_increasing htaken, state_scan refuse visit _ start,
    fun _ _ _ _ _ => stop_of_visit refuse visit, ?_, ?_⟩
  · intro event hmem
    exact mem_findings_iff_shows.mp (mem_findings_of_mem_visits refuse visit hmem)
  · intro hnone
    rw [hall hnone, List.append_nil] at hsplit
    refine ⟨fun line marker h => ?_, fun line fault h => ?_⟩
    · rw [hvisits, mem_eventsAmong, ← hsplit]
      exact mem_findings_iff_shows.mpr h
    · exact hfaultless line fault (hsplit ▸ mem_findings_iff_shows.mpr h)
  · intro reason hreason
    cases hstops reason hreason with
    | @fault line fault rest next =>
        subst next
        have hmem : ⟨line, .error fault⟩ ∈ log.findings := by
          rw [hsplit]
          exact List.mem_append_right taken List.mem_cons_self
        refine .inl ⟨line, fault, mem_findings_iff_shows.mp hmem, rfl, ?_, ?_⟩
        · rintro ⟨number, marker⟩ hevent
          rw [hvisits, mem_eventsAmong] at hevent
          exact hcross _ hevent _ List.mem_cons_self
        · rw [hvisits]
          refine readUpTo_of_split hsplit hfaultless ?_
          rintro finding (_ | ⟨_, hrest⟩)
          · exact Nat.le_refl line
          · exact Nat.le_of_lt (List.rel_of_pairwise_cons hleft hrest)
    | @visit earlier line marker _ last stops =>
        have hlast : ⟨line, .ok marker⟩ ∈ taken := by
          rw [← mem_eventsAmong, ← hvisits, last]
          exact List.mem_append_right earlier List.mem_cons_self
        have hread : log.ReadUpTo line (earlier ++ [(line, marker)]) := by
          rw [← last, hvisits]
          exact readUpTo_of_split hsplit hfaultless fun finding hmem =>
            Nat.le_of_lt (hcross _ hlast finding hmem)
        refine .inr ⟨earlier, line, marker, last, stops, ?_, hread.faultless⟩
        intro number found h hlt
        rcases List.mem_append.mp (hread.visited number found h hlt) with hearlier | hsame
        · exact hearlier
        · cases List.mem_singleton.mp hsame
          exact absurd hlt (Nat.lt_irrefl line)

/-! ## Two parts -/

/-- **GOING ON**: a scan that stops in the first part is the scan of the first
    part, whatever the second is; one that does not goes on from the state that
    it has reached as the scan of the second part, with all numbers greater by
    the newlines of the first. -/
structure GoesOn (a b : List UInt8) (fault : Option FileError) (start : σ) : Prop where
  stops : (scan refuse visit (LogContent.findings ⟨a, none⟩) start).stop ≠ none →
    scan refuse visit (LogContent.findings ⟨a ++ b, fault⟩) start
        = scan refuse visit (LogContent.findings ⟨a, none⟩) start
      ∧ visits refuse visit (LogContent.findings ⟨a ++ b, fault⟩) start
        = visits refuse visit (LogContent.findings ⟨a, none⟩) start
  goes : ∀ reached, scan refuse visit (LogContent.findings ⟨a, none⟩) start = ⟨reached, none⟩ →
    scan refuse visit (LogContent.findings ⟨a ++ b, fault⟩) start
        = scan (below (a.count newline) refuse) (below (a.count newline) visit)
            (LogContent.findings ⟨b, fault⟩) reached
      ∧ visits refuse visit (LogContent.findings ⟨a ++ b, fault⟩) start
        = visits refuse visit (LogContent.findings ⟨a, none⟩) start
          ++ (visits (below (a.count newline) refuse) (below (a.count newline) visit)
              (LogContent.findings ⟨b, fault⟩) reached).map
            fun event => (event.1 + a.count newline, event.2)

/-- A log that is cut behind a newline is scanned part by part. -/
theorem goesOn_of_endsLine {a : List UInt8} (h : EndsLine a) (b : List UInt8)
    (fault : Option FileError) (start : σ) : GoesOn refuse visit a b fault start := by
  constructor
  · intro hstop
    rw [findings_append h, scan_append, visits_append]
    generalize scan refuse visit (LogContent.findings ⟨a, none⟩) start = first at hstop ⊢
    obtain ⟨reached, stop⟩ := first
    cases stop with
    | none => exact absurd rfl hstop
    | some reason => exact ⟨rfl, List.append_nil _⟩
  · intro reached hreached
    rw [findings_append h, scan_append, visits_append, hreached, Progress.andThen_going,
      scan_later, visits_later]
    exact ⟨rfl, rfl⟩

/-- **TWO PARTS**: whatever the visitor, a log that is cut behind a newline is
    scanned part by part; in every scan the numbers are those of the lines, of
    which there are as many as newlines, and a newline at the very end of a line
    opens no further one. -/
theorem scan_in_two_parts (start : σ) :
    (∀ (a b : List UInt8) (fault : Option FileError), EndsLine a →
        GoesOn refuse visit a b fault start)
      ∧ (∀ log : LogContent, Numbered refuse visit log start)
      ∧ ∀ bytes : List UInt8,
        (EndsLine bytes → (linesOf bytes).length = bytes.count newline)
          ∧ (¬ EndsLine bytes → linesOf (bytes ++ [newline]) = linesOf bytes) :=
  ⟨fun _ b fault h => goesOn_of_endsLine refuse visit h b fault start,
    fun log => numbered_scan refuse visit log start,
    fun _ => ⟨length_linesOf, linesOf_concat_newline⟩⟩

/-- A visitor that counts the markers, and stops at the last of so many. -/
def stopAfter (limit line : Nat) (_ : Marker) (count : Nat) : Progress Nat Nat :=
  ⟨count + 1, if count + 1 = limit then some line else none⟩

/-- The first part of a log. -/
def upperPart : List UInt8 :=
  Utf8.encode "noise\nBegin Step 1 5\n".toList

/-- The second part; its second line names a step that there is not. -/
def lowerPart : List UInt8 :=
  Utf8.encode "End Step 1 9\nBegin Step 9 1\nBegin Step 2 3\n".toList

/-- A visitor that has not enough goes on into the second part, up to its fault; one
    that has stays in the first. -/
theorem scans_of_parts :
    EndsLine upperPart
      ∧ visits (fun line _ => line) (stopAfter 9)
          (LogContent.findings ⟨upperPart ++ lowerPart, none⟩) 0
        = [(2, .beginStep ⟨0, by decide⟩ 5), (3, .endStep ⟨0, by decide⟩ 9)]
      ∧ scan (fun line _ => line) (stopAfter 9)
          (LogContent.findings ⟨upperPart ++ lowerPart, none⟩) 0
        = ⟨2, some 4⟩
      ∧ visits (fun line _ => line) (stopAfter 1)
          (LogContent.findings ⟨upperPart ++ lowerPart, none⟩) 0
        = [(2, .beginStep ⟨0, by decide⟩ 5)]
      ∧ scan (fun line _ => line) (stopAfter 1)
          (LogContent.findings ⟨upperPart ++ lowerPart, none⟩) 0
        = ⟨1, some 2⟩ := by
  have hends : EndsLine upperPart := .inr (by decide +kernel)
  have hpatient := (scan_in_two_parts (fun line _ => line) (stopAfter 9) 0).1 upperPart lowerPart
    none hends
  obtain ⟨hscan, hvisits⟩ := hpatient.goes 1 (by decide +kernel)
  have hhasty := (scan_in_two_parts (fun line _ => line) (stopAfter 1) 0).1 upperPart lowerPart
    none hends
  obtain ⟨hscan', hvisits'⟩ := hhasty.stops (by decide +kernel)
  exact ⟨hends, hvisits.trans (by decide +kernel), hscan.trans (by decide +kernel),
    hvisits'.trans (by decide +kernel), hscan'.trans (by decide +kernel)⟩

end RunTimings
