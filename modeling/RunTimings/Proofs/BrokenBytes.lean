import RunTimings.Proofs.TrailingBlanks

/-! # Broken bytes — a line that is no text and still tells something

    The bytes of a line that are not UTF-8 are shown as replacement characters,
    and then the line is compared with the forms like any other.  No fixed word,
    numeral or blank is shown as a replacement character, so a form that such a
    line has must have its broken bytes in free text: before the begin words,
    between a step and its time, or in the name of an id.

    * `BreaksInFreeText` is a line of that kind, with what it comes to;
    * `readLine_ne_noise_iff` — a line with broken bytes is noise unless it is of
      that kind;
    * `broken_lines_exactly` — the same for the lines of a log and for what a scan
      of it visits.
    * `not_every_broken_line_is_noise` — a begin marker behind a word that is
      written in another encoding. -/

namespace RunTimings

open RunTimings.Text

/-! ## No part of a form is shown broken -/

theorem replacement_not_mem_numeral {digits : List Char} (h : IsNumeral digits) :
    Utf8.replacement ∉ digits :=
  fun hmem => absurd (h.2 _ hmem) (by decide)

theorem replacement_not_mem_blanks {blanks : List Char} (h : ∀ c ∈ blanks, isBlank c = true) :
    Utf8.replacement ∉ blanks :=
  fun hmem => absurd (h _ hmem) (by decide)

theorem CycleEvent.replacement_not_mem_number {event : CycleEvent} {number : List Char}
    (h : event.IsNumber number) : Utf8.replacement ∉ number := by
  cases event with
  | start => exact replacement_not_mem_numeral h
  | finish => exact replacement_not_mem_numeral h
  | wait =>
      rcases h with hplain | ⟨digits, rfl, hdigits⟩
      · exact replacement_not_mem_numeral hplain
      · rw [List.mem_cons, not_or]
        exact ⟨by decide, replacement_not_mem_numeral hdigits⟩

theorem StepEdge.replacement_not_mem_words (edge : StepEdge) :
    Utf8.replacement ∉ edge.words := by
  cases edge with
  | start => decide
  | finish => decide

theorem CycleEvent.replacement_not_mem_words (event : CycleEvent) :
    Utf8.replacement ∉ event.words := by
  cases event with
  | start => decide
  | finish => decide
  | wait => decide

theorem CycleEvent.replacement_not_mem_separator (event : CycleEvent) :
    Utf8.replacement ∉ event.separator := by
  cases event with
  | start => decide
  | finish => decide
  | wait => decide

/-! ## Broken bytes in free text -/

/-- **BROKEN IN FREE TEXT**: the line has one of the forms as it is shown, its
    words, numerals and blanks are whole, and the broken bytes are in the text
    that the form leaves free; what it comes to is what its numerals come to. -/
inductive BreaksInFreeText (bytes : List UInt8) : Except MarkerError (Option Marker) → Prop where
  | step {edge : StepEdge} {step time : List Char} (before between : List UInt8) (gap : Char)
      (blanks : List Char) (form : StepLine edge step time (Utf8.decode bytes))
      (split : bytes = before ++ (Utf8.encode (edge.words ++ ' ' :: step)
        ++ (between ++ Utf8.encode (gap :: time ++ blanks))))
      (broken : ¬ Utf8.IsText before ∨ ¬ Utf8.IsText between) :
      BreaksInFreeText bytes (edge.outcome step time)
  | cycle {event : CycleEvent} {cycle number : List Char} (name : List UInt8)
      (blanks : List Char) (form : event.Spells cycle number (Utf8.decode bytes))
      (split : bytes = Utf8.encode event.words ++ (name
        ++ Utf8.encode ("test".toList ++ (cycle ++ (event.separator ++ (number ++ blanks))))))
      (broken : ¬ Utf8.IsText name) :
      BreaksInFreeText bytes (event.outcome cycle number)

/-- The outcome of a line with a form does not depend on what is broken in it. -/
theorem BreaksInFreeText.readLine {bytes : List UInt8}
    {outcome : Except MarkerError (Option Marker)} (h : BreaksInFreeText bytes outcome) :
    readLine bytes = outcome ∧ outcome ≠ .ok none := by
  rw [readLine_eq]
  cases h with
  | @step edge step time before between gap blanks form split broken =>
      have hform := stepLine_iff.mp form
      obtain ⟨_, -, _, _, _, -, -, htime, -⟩ := form
      rw [classify_of_recognise hform, ← read_written edge step htime]
      exact ⟨rfl, WrittenMarker.read_ne_noise _⟩
  | @cycle event cycle number name blanks form split broken =>
      rw [form.classified, ← CycleEvent.read_written]
      exact ⟨rfl, WrittenMarker.read_ne_noise _⟩

/-- The text by which a line is judged stands at its end. -/
theorem JudgedBy.exists_front {line text : List Char} (h : JudgedBy line text) :
    ∃ front, line = front ++ text := by
  rcases h with hfirst | ⟨rfl, -⟩
  · obtain ⟨before, heq, -⟩ := hfirst.first
    exact ⟨before, heq⟩
  · exact ⟨[], rfl⟩

/-- A step line with broken bytes has them in free text. -/
theorem StepLine.breaksInFreeText {bytes : List UInt8} (hbroken : ¬ Utf8.IsText bytes)
    {edge : StepEdge} {step time : List Char} (form : StepLine edge step time (Utf8.decode bytes)) :
    BreaksInFreeText bytes (edge.outcome step time) := by
  obtain ⟨_, hjudged, between, gap, blanks, rfl, hstep, htime, -, hgap, -, hblanks⟩ := id form
  obtain ⟨front, hshown⟩ := hjudged.exists_front
  have hopening : Utf8.replacement ∉ edge.words ++ ' ' :: step := by
    simp only [List.mem_append, List.mem_cons, not_or]
    exact ⟨edge.replacement_not_mem_words, by decide, replacement_not_mem_numeral hstep⟩
  have hending : Utf8.replacement ∉ gap :: time ++ blanks := by
    simp only [List.mem_append, List.mem_cons, not_or]
    refine ⟨⟨?_, replacement_not_mem_numeral htime⟩, replacement_not_mem_blanks hblanks⟩
    rintro rfl
    exact absurd hgap (by decide)
  have hparts : Utf8.decode bytes
      = front ++ ((edge.words ++ ' ' :: step) ++ (between ++ (gap :: time ++ blanks))) := by
    rw [hshown]
    simp only [List.append_assoc]
  obtain ⟨before, inner, hsplit, -⟩ := Utf8.bytes_split hparts hopening hending
  refine .step before inner gap blanks form hsplit ?_
  -- if both were text the whole line would be
  by_contra hwhole
  rw [not_or, not_not, not_not] at hwhole
  obtain ⟨hbefore, hinner⟩ := hwhole
  exact hbroken (hsplit ▸ hbefore.append (.append ⟨_, rfl⟩ (hinner.append ⟨_, rfl⟩)))

/-- An id with broken bytes has them in its name. -/
theorem breaksInFreeText_of_stem {bytes : List UInt8} (hbroken : ¬ Utf8.IsText bytes)
    {event : CycleEvent} {cycle number name blanks : List Char}
    (form : event.Spells cycle number (Utf8.decode bytes))
    (hshown : Utf8.decode bytes = event.words ++ ((name ++ "test".toList)
      ++ (cycle ++ (event.separator ++ (number ++ blanks)))))
    (hnumerals : Utf8.replacement ∉ cycle ++ (event.separator ++ (number ++ blanks))) :
    BreaksInFreeText bytes (event.outcome cycle number) := by
  have hending : Utf8.replacement
      ∉ "test".toList ++ (cycle ++ (event.separator ++ (number ++ blanks))) := by
    rw [List.mem_append, not_or]
    exact ⟨by decide, hnumerals⟩
  have hparts : Utf8.decode bytes = [] ++ (event.words
      ++ (name ++ ("test".toList ++ (cycle ++ (event.separator ++ (number ++ blanks)))))) := by
    rw [hshown, List.append_assoc, List.nil_append]
  obtain ⟨before, inner, hsplit, hnone⟩ :=
    Utf8.bytes_split hparts event.replacement_not_mem_words hending
  rw [hnone rfl, List.nil_append] at hsplit
  refine .cycle inner blanks form hsplit ?_
  intro hinner
  exact hbroken (hsplit ▸ .append ⟨_, rfl⟩ (hinner.append ⟨_, rfl⟩))

/-- A cycle line with broken bytes has them in the name of its id. -/
theorem CycleEvent.Spells.breaksInFreeText {bytes : List UInt8} (hbroken : ¬ Utf8.IsText bytes)
    {event : CycleEvent} {cycle number : List Char}
    (form : event.Spells cycle number (Utf8.decode bytes)) :
    BreaksInFreeText bytes (event.outcome cycle number) := by
  obtain ⟨label, blanks, hshown, hlabel, hcycle, hnumber, hblanks⟩ := id form
  have hnumerals : Utf8.replacement ∉ cycle ++ (event.separator ++ (number ++ blanks)) := by
    simp only [List.mem_append, not_or]
    exact ⟨replacement_not_mem_numeral hcycle, event.replacement_not_mem_separator,
      event.replacement_not_mem_number hnumber, replacement_not_mem_blanks hblanks⟩
  cases event with
  | start =>
      -- this form leaves no text free, so nothing is broken
      obtain rfl : label = [] := hlabel
      refine absurd (Utf8.isText_of_decode ?_) hbroken
      rw [hshown, List.nil_append, List.mem_append, not_or]
      exact ⟨CycleEvent.replacement_not_mem_words .start, hnumerals⟩
  | finish =>
      obtain ⟨name, rfl, -⟩ := hlabel
      exact breaksInFreeText_of_stem hbroken form hshown hnumerals
  | wait =>
      obtain ⟨name, rfl, -⟩ := hlabel
      exact breaksInFreeText_of_stem hbroken form hshown hnumerals

/-- **NOISE UNLESS IN FREE TEXT**: a line with broken bytes comes to something
    exactly if they are in the text that a form leaves free. -/
theorem readLine_ne_noise_iff {bytes : List UInt8} (hbroken : ¬ Utf8.IsText bytes) :
    readLine bytes ≠ .ok none ↔ ∃ outcome, BreaksInFreeText bytes outcome := by
  constructor
  · intro hfound
    rw [readLine_eq] at hfound
    by_cases hstep : TakenForStep (Utf8.decode bytes)
    · obtain ⟨edge, step, time, hform⟩ := hstep
      exact ⟨_, StepLine.breaksInFreeText hbroken (stepLine_iff.mpr hform)⟩
    by_cases hcycle : ∃ (event : CycleEvent) (cycle number : List Char),
        event.Spells cycle number (Utf8.decode bytes)
    · obtain ⟨event, cycle, number, hspells⟩ := hcycle
      exact ⟨_, hspells.breaksInFreeText hbroken⟩
    · refine absurd (classify_of_no_form hstep ?_) hfound
      intro event cycle number hspells
      exact hcycle ⟨event, cycle, number, hspells⟩
  · rintro ⟨outcome, hbreaks⟩
    obtain ⟨hread, hnoise⟩ := hbreaks.readLine
    rw [hread]
    exact hnoise

/-! ## The lines of a log -/

/-- The log passes over a line: nothing is found on it, neither a marker nor a
    fault, and so there is nothing that a scan could visit or stop at. -/
def LogContent.PassesOver (log : LogContent) (line : Nat) : Prop :=
  ∀ finding ∈ log.findings, finding.line ≠ line

/-- What is found under the number of a line is what is found on that line. -/
theorem mem_findings_iff {log : LogContent} {content : Except FileError (List UInt8)} {line : Nat}
    (hline : (content, line) ∈ log.lines.zipIdx 1) {finding : Finding} :
    finding ∈ log.findings ∧ finding.line = line ↔ findOn (content, line) = some finding := by
  constructor
  · rintro ⟨hmem, rfl⟩
    obtain ⟨⟨other, number⟩, hother, hfound⟩ := List.mem_filterMap.mp hmem
    have hnumber := line_of_findOn hfound
    -- two lines with one number are one line
    rw [hnumber] at hline ⊢
    obtain ⟨-, hget⟩ := List.mk_mem_zipIdx_iff_le_and_getElem?_sub.mp hline
    obtain ⟨-, hget'⟩ := List.mk_mem_zipIdx_iff_le_and_getElem?_sub.mp hother
    rw [Option.some.inj (hget.symm.trans hget')]
    exact hfound
  · intro hfound
    exact ⟨List.mem_filterMap.mpr ⟨_, hline, hfound⟩, line_of_findOn hfound⟩

theorem findOn_eq_none_iff {bytes : List UInt8} {line : Nat} :
    findOn (.ok bytes, line) = none ↔ readLine bytes = .ok none := by
  rw [findOn_ok]
  cases readLine bytes with
  | error error => simp
  | ok found => cases found <;> simp

/-- A line is passed over exactly if it is noise. -/
theorem passesOver_iff {log : LogContent} {content : List UInt8} {line : Nat}
    (hline : (.ok content, line) ∈ log.lines.zipIdx 1) :
    log.PassesOver line ↔ readLine content = .ok none := by
  rw [← @findOn_eq_none_iff content line, Option.eq_none_iff_forall_ne_some]
  constructor
  · intro hpasses finding hfound
    obtain ⟨hmem, hnumber⟩ := (mem_findings_iff hline).mpr hfound
    exact hpasses finding hmem hnumber
  · intro hnone finding hmem hnumber
    exact hnone finding ((mem_findings_iff hline).mp ⟨hmem, hnumber⟩)

/-- **BROKEN LINES**: a log passes over a line with broken bytes unless these are
    in the text that a form leaves free; then the line comes to what its numerals
    come to, and every marker that a scan visits on such a line is of that kind. -/
theorem broken_lines_exactly {log : LogContent} {content : List UInt8} {line : Nat}
    (hline : (.ok content, line) ∈ log.lines.zipIdx 1) (hbroken : ¬ Utf8.IsText content) :
    (log.PassesOver line ↔ ∀ outcome, ¬ BreaksInFreeText content outcome)
      ∧ (∀ outcome, BreaksInFreeText content outcome → readLine content = outcome)
      ∧ ∀ {σ ε : Type} (refuse : Nat → LineFault → ε) (visit : Nat → Marker → σ → Progress σ ε)
          (start : σ) (marker : Marker), (line, marker) ∈ visits refuse visit log.findings start →
        BreaksInFreeText content (.ok (some marker)) := by
  refine ⟨?_, fun outcome hbreaks => hbreaks.readLine.1, ?_⟩
  · rw [passesOver_iff hline, ← not_exists, ← readLine_ne_noise_iff hbroken, not_not]
  · intro σ ε refuse visit start marker hvisited
    have hmem := mem_findings_of_mem_visits refuse visit hvisited
    have hfound := (mem_findings_iff hline).mp ⟨hmem, rfl⟩
    have hread : readLine content = .ok (some marker) := by
      rw [findOn_ok] at hfound
      cases hread : readLine content with
      | error error => rw [hread] at hfound; cases hfound
      | ok found =>
          rw [hread] at hfound
          cases found with
          | none => cases hfound
          | some other => cases hfound; rfl
    have hnoise : readLine content ≠ .ok none := by
      rw [hread]
      intro heq
      cases heq
    obtain ⟨outcome, hbreaks⟩ := (readLine_ne_noise_iff hbroken).mp hnoise
    rw [← hread, hbreaks.readLine.1]
    exact hbreaks

/-- A begin marker behind a word in another encoding: its last letter is one byte
    that is not UTF-8. -/
def latinWordLine : List UInt8 :=
  Utf8.encode "Caf".toList ++ [0xe9] ++ Utf8.encode ": Begin Step 1 100".toList

/-- The broken byte is in front of the begin words, where the form is free. -/
theorem latinWordLine_breaks :
    BreaksInFreeText latinWordLine (.ok (some (.beginStep ⟨0, by decide⟩ 100))) :=
  have hline : (.ok latinWordLine, 1) ∈ (LogContent.lines ⟨latinWordLine, none⟩).zipIdx 1 := by
    decide +kernel
  have hbroken : ¬ Utf8.IsText latinWordLine := by decide +kernel
  (broken_lines_exactly hline hbroken).2.2 (fun line _ => line) (fun line _ _ => ⟨line, none⟩) 0 _
    (by decide +kernel)

/-- **NOT NOISE**: the bytes of the line are not UTF-8, and still it is a begin
    marker. -/
theorem not_every_broken_line_is_noise :
    ¬ ∀ (log : LogContent) (content : List UInt8) (line : Nat),
      (.ok content, line) ∈ log.lines.zipIdx 1 → ¬ Utf8.IsText content → log.PassesOver line := by
  intro h
  have hpasses := h ⟨latinWordLine, none⟩ latinWordLine 1 (by decide +kernel) (by decide +kernel)
  revert hpasses
  simp only [LogContent.PassesOver]
  decide +kernel

end RunTimings
