import Mathlib.Data.List.Induction
import RunTimings.Log.Scan
import RunTimings.Proofs.Classification

/-! # Logs that are read to the end — what a visitor sees of them

    A scan ends early for two reasons: a line that cannot be used, or a visitor
    that has enough.  When neither happens the visitor has seen every marker of
    the log, in the order of the lines.

    * `LogContent.Readable` and `LogContent.markers` speak of the lines alone;
      `readable_iff_findings` and `seen_findings` tie them to the findings that
      a scan is led through.
    * `Follows` is what a visitor has to keep, marker by marker, so that its
      scan goes through EXACTLY when a rule on the markers holds, and ends in a
      state that belongs to them (`Follows.completes`).  Each accumulator proves
      the few local facts; the induction over the findings is here, once. -/

namespace RunTimings

/-! ## Lines and findings -/

/-- The whole log can be read, and each of its lines is a marker or noise. -/
def LogContent.Readable (log : LogContent) : Prop :=
  log.fault = none ∧ ∀ bytes ∈ linesOf log.bytes, ∃ found, readLine bytes = .ok found

/-- The marker on a line, if it has one that can be used. -/
def markerOn (bytes : List UInt8) : Option Marker :=
  match readLine bytes with
  | .ok found => found
  | .error _ => none

/-- The markers of a log, in the order of its lines. -/
def LogContent.markers (log : LogContent) : List Marker :=
  (linesOf log.bytes).filterMap markerOn

/-- The markers among some findings. -/
def seen (findings : List Finding) : List Marker :=
  findings.filterMap fun finding => finding.found.toOption

/-- A log is readable exactly if each of its lines is there and usable. -/
theorem readable_iff_lines (log : LogContent) :
    log.Readable ↔
      ∀ content ∈ log.lines, ∃ bytes found, content = .ok bytes ∧ readLine bytes = .ok found := by
  simp only [LogContent.Readable, LogContent.lines]
  cases log.fault with
  | none =>
      constructor
      · rintro ⟨-, hlines⟩ content hcontent
        obtain ⟨bytes, hbytes, rfl⟩ := List.mem_map.mp hcontent
        obtain ⟨found, hread⟩ := hlines bytes hbytes
        exact ⟨bytes, found, rfl, hread⟩
      · intro h
        refine ⟨rfl, ?_⟩
        intro bytes hbytes
        obtain ⟨_, found, heq, hread⟩ := h (.ok bytes) (List.mem_map_of_mem hbytes)
        cases heq
        exact ⟨found, hread⟩
  | some error =>
      -- the reading error stands in the place of the last line
      constructor
      · rintro ⟨hnone, -⟩
        exact nomatch hnone
      · intro h
        obtain ⟨_, _, heq, -⟩ := h (.error error)
          (List.mem_append_right _ (List.mem_cons_self ..))
        exact nomatch heq

theorem findOn_ok (bytes : List UInt8) (line : Nat) :
    findOn (.ok bytes, line) = match readLine bytes with
      | .error error => some ⟨line, .error (.unusable error)⟩
      | .ok none => none
      | .ok (some marker) => some ⟨line, .ok marker⟩ := rfl

/-- What is found on a line is no fault exactly if the line is usable. -/
theorem usable_iff (content : Except FileError (List UInt8)) (line : Nat) :
    (∀ finding, findOn (content, line) = some finding → ∃ marker, finding.found = .ok marker) ↔
      ∃ bytes found, content = .ok bytes ∧ readLine bytes = .ok found := by
  cases content with
  | error error =>
      constructor
      · intro h
        obtain ⟨_, hmarker⟩ := h _ rfl
        exact nomatch hmarker
      · rintro ⟨_, _, heq, -⟩
        exact nomatch heq
  | ok bytes =>
      rw [findOn_ok]
      cases hread : readLine bytes with
      | error error =>
          constructor
          · intro h
            obtain ⟨_, hmarker⟩ := h _ rfl
            exact nomatch hmarker
          · rintro ⟨_, _, heq, hok⟩
            cases heq
            rw [hread] at hok
            exact nomatch hok
      | ok found =>
          refine ⟨fun _ => ⟨bytes, found, rfl, hread⟩, ?_⟩
          intro _ finding hfinding
          cases found with
          | none => exact nomatch hfinding
          | some marker =>
              obtain rfl := Option.some.inj hfinding
              exact ⟨marker, rfl⟩

/-- A log is readable exactly if nothing that is found in it is a fault. -/
theorem readable_iff_findings (log : LogContent) :
    log.Readable ↔ ∀ finding ∈ log.findings, ∃ marker, finding.found = .ok marker := by
  rw [readable_iff_lines]
  constructor
  · intro h finding hfinding
    obtain ⟨⟨content, line⟩, hmem, hfound⟩ := List.mem_filterMap.mp hfinding
    exact (usable_iff content line).mpr (h content (List.fst_mem_of_mem_zipIdx hmem))
      finding hfound
  · intro h content hcontent
    rw [← List.zipIdx_map_fst 1 log.lines] at hcontent
    obtain ⟨⟨content, line⟩, hmem, rfl⟩ := List.mem_map.mp hcontent
    refine (usable_iff content line).mp ?_
    intro finding hfound
    exact h finding (List.mem_filterMap.mpr ⟨_, hmem, hfound⟩)

/-- The findings of a log that can be read to its end show all of its markers. -/
theorem seen_findings {log : LogContent} (h : log.fault = none) :
    seen log.findings = log.markers := by
  have hline : (fun item => (findOn item).bind fun finding => finding.found.toOption)
      = (fun content : Except FileError (List UInt8) => content.toOption.bind markerOn)
        ∘ Prod.fst := by
    funext ⟨content, line⟩
    cases content with
    | error error => rfl
    | ok bytes =>
        show (findOn (.ok bytes, line)).bind _ = markerOn bytes
        rw [findOn_ok]
        simp only [markerOn]
        cases readLine bytes with
        | error error => rfl
        | ok found => cases found <;> rfl
  simp only [seen, LogContent.findings, LogContent.markers, LogContent.lines]
  rw [List.filterMap_filterMap, hline, ← List.filterMap_map, List.zipIdx_map_fst, h,
    List.filterMap_map]
  rfl

/-- The numbers of a log's markers fit 64 bits. -/
theorem LogContent.signed64_of_mem_markers {log : LogContent} {marker : Marker}
    (h : marker ∈ log.markers) : Signed64 marker.number := by
  obtain ⟨bytes, -, hline⟩ := List.mem_filterMap.mp h
  simp only [markerOn] at hline
  cases hread : readLine bytes with
  | error error =>
      rw [hread] at hline
      cases hline
  | ok found =>
      rw [hread] at hline
      have hfound : found = some marker := hline
      rw [hfound] at hread
      exact signed64_of_classify hread

/-! ## Visitors that keep to a rule -/

section Visitors

variable {σ ε : Type} {refuse : Nat → LineFault → ε} {visit : Nat → Marker → σ → Progress σ ε}

/-- A visitor that has not stopped goes on from where it stands. -/
theorem Progress.andThen_going (state : σ) (next : σ → Progress σ ε) :
    Progress.andThen ⟨state, none⟩ next = next state := rfl

/-- A scan of a fault stops where it stands. -/
theorem scan_fault (line : Nat) (fault : LineFault) (state : σ) :
    scan refuse visit [⟨line, .error fault⟩] state = ⟨state, some (refuse line fault)⟩ := rfl

/-- A scan of a marker is a visit. -/
theorem scan_marker (line : Nat) (marker : Marker) (state : σ) :
    scan refuse visit [⟨line, .ok marker⟩] state = visit line marker state := by
  rw [scan]
  obtain ⟨reached, stop⟩ := visit line marker state
  cases stop with
  | none => rfl
  | some reason => rfl

/-- What a visitor keeps, marker by marker: after markers that the rule `Good`
    admits it is in a state that `Inv` ties to them, and it goes on after one
    more marker exactly if the rule admits that one too. -/
structure Follows (visit : Nat → Marker → σ → Progress σ ε) (start : σ)
    (Good : List Marker → Prop) (Inv : List Marker → σ → Prop) : Prop where
  good_nil : Good []
  inv_nil : Inv [] start
  good_of_concat : ∀ {past marker}, Good (past ++ [marker]) → Good past
  stop_iff : ∀ {past state}, Good past → Inv past state → ∀ line marker,
    (visit line marker state).stop = none ↔ Good (past ++ [marker])
  inv_concat : ∀ {past state}, Inv past state → ∀ line marker, Good (past ++ [marker]) →
    Inv (past ++ [marker]) (visit line marker state).state

theorem seen_concat (past : List Finding) (finding : Finding) :
    seen (past ++ [finding]) = seen past ++ finding.found.toOption.toList := by
  simp only [seen]
  rw [List.filterMap_append]
  cases h : finding.found.toOption <;> simp [h]

/-- **SCANS OF A RULE**: a visitor that follows a rule gets through some
    findings exactly if none of them is a fault and the rule admits the markers
    among them; it is then in a state that belongs to these markers. -/
theorem Follows.completes {start : σ} {Good : List Marker → Prop} {Inv : List Marker → σ → Prop}
    (h : Follows visit start Good Inv) (refuse : Nat → LineFault → ε) (findings : List Finding) :
    ((scan refuse visit findings start).stop = none ↔
        (∀ finding ∈ findings, ∃ marker, finding.found = .ok marker) ∧ Good (seen findings))
      ∧ ((scan refuse visit findings start).stop = none →
        Inv (seen findings) (scan refuse visit findings start).state) := by
  induction findings using List.reverseRecOn with
  | nil =>
      refine ⟨⟨fun _ => ⟨?_, h.good_nil⟩, fun _ => rfl⟩, fun _ => h.inv_nil⟩
      intro finding hfinding
      exact nomatch hfinding
  | append_singleton past finding ih =>
      obtain ⟨hstop, hinv⟩ := ih
      rw [scan_append, seen_concat, List.forall_mem_append, List.forall_mem_singleton]
      generalize scan refuse visit past start = reached at hstop hinv ⊢
      obtain ⟨state, stop⟩ := reached
      obtain ⟨line, found⟩ := finding
      cases stop with
      | some reason =>
          -- the scan has stopped before, so the rule is broken before
          refine ⟨⟨?_, ?_⟩, ?_⟩
          · intro heq
            cases heq
          · rintro ⟨⟨hpast, marker, rfl⟩, hgood⟩
            cases hstop.mpr ⟨hpast, h.good_of_concat hgood⟩
          · intro heq
            cases heq
      | none =>
          obtain ⟨hpast, hgood⟩ := hstop.mp rfl
          have hstate := hinv rfl
          cases found with
          | error fault =>
              rw [Progress.andThen_going, scan_fault]
              refine ⟨⟨?_, ?_⟩, ?_⟩
              · intro heq
                cases heq
              · rintro ⟨⟨-, marker, hmarker⟩, -⟩
                cases hmarker
              · intro heq
                cases heq
          | ok marker =>
              have hiff := h.stop_iff hgood hstate line marker
              rw [Progress.andThen_going, scan_marker]
              refine ⟨⟨?_, ?_⟩, ?_⟩
              · intro heq
                exact ⟨⟨hpast, marker, rfl⟩, hiff.mp heq⟩
              · rintro ⟨-, hlast⟩
                exact hiff.mpr hlast
              · intro heq
                exact h.inv_concat hstate line marker (hiff.mp heq)

/-- A visitor that follows a rule gets through a log exactly if the log is
    readable and the rule admits its markers. -/
theorem Follows.completes_log {start : σ} {Good : List Marker → Prop}
    {Inv : List Marker → σ → Prop} (h : Follows visit start Good Inv)
    (refuse : Nat → LineFault → ε) (log : LogContent) :
    ((scan refuse visit log.findings start).stop = none ↔ log.Readable ∧ Good log.markers)
      ∧ ((scan refuse visit log.findings start).stop = none →
        Inv log.markers (scan refuse visit log.findings start).state) := by
  obtain ⟨hstop, hinv⟩ := h.completes refuse log.findings
  rw [← readable_iff_findings] at hstop
  constructor
  · -- a readable log has no reading error, so its findings show all markers
    rw [hstop]
    constructor
    · rintro ⟨hreadable, hgood⟩
      exact ⟨hreadable, seen_findings hreadable.1 ▸ hgood⟩
    · rintro ⟨hreadable, hgood⟩
      exact ⟨hreadable, (seen_findings hreadable.1).symm ▸ hgood⟩
  · intro heq
    rw [← seen_findings (hstop.mp heq).1.1]
    exact hinv heq

end Visitors

end RunTimings
