import RunTimings.Proofs.Classification
import RunTimings.Proofs.Numerals

/-! # Step lines — their one form and their outcome

    A step line is the words of a begin or an end, a space, the step, anything
    on one line that does not continue the step's word, a blank character, the
    time, and blanks.  The text in between may hold further numbers and spaces,
    and still a line has the form in at most one way.

    * `StepEdge.Spells` is the form, and `StepEdge.outcome` what the two
      numerals come to;
    * `recognise_eq_written_iff` — the recogniser takes a text for a step line
      exactly if it has the form;
    * `step_lines_exactly` — the same for whole lines, with the outcome. -/

namespace RunTimings

open RunTimings.Text

/-! ## The form -/

/-- The two events of a step that a line can tell. -/
inductive StepEdge where
  | start
  | finish
deriving DecidableEq, Repr

/-- The words that open the line. -/
def StepEdge.words : StepEdge → List Char
  | .start => "Begin Step".toList
  | .finish => "End Step".toList

/-- The line as it is recognised. -/
def StepEdge.written : StepEdge → List Char → List Char → WrittenMarker
  | .start => .beginStep
  | .finish => .endStep

/-- The event that the line tells. -/
def StepEdge.marker : StepEdge → StepIndex → Int → Marker
  | .start => .beginStep
  | .finish => .endStep

/-- **THE FORM**: the text is made of the words, a space, the step, something on
    one line that ends the step's word, a blank character, the time, and blanks. -/
def StepEdge.Spells (edge : StepEdge) (step time text : List Char) : Prop :=
  ∃ between gap blanks,
    text = edge.words ++ ' ' :: step ++ between ++ gap :: time ++ blanks
      ∧ IsNumeral step ∧ IsNumeral time
      ∧ '\n' ∉ between ∧ isBlank gap = true
      ∧ (∀ c ∈ (between ++ [gap]).head?, isWordChar c = false)
      ∧ ∀ c ∈ blanks, isBlank c = true

/-- A text goes on with the end of a word if its first character is in no word. -/
theorem endsWord_iff {text : List Char} :
    endsWord text = true ↔ ∃ c, text.head? = some c ∧ isWordChar c = false := by
  cases text with
  | nil => simp [endsWord]
  | cons c text => simp [endsWord]

/-- A step line is words, a numeral, and a rest that ends the word and ends in a
    time. -/
theorem stepLine_eq_some_iff {words text step time : List Char} :
    stepLine words text = some (step, time)
      ↔ ∃ rest, text = words ++ (step ++ rest) ∧ IsNumeral step
        ∧ endsWord rest = true ∧ EndsInTime time rest := by
  simp only [stepLine]
  constructor
  · intro h
    obtain ⟨afterFirst, hwords, h⟩ := Option.bind_eq_some_iff.mp h
    obtain ⟨⟨digits, rest⟩, hnumeral, h⟩ := Option.bind_eq_some_iff.mp h
    obtain ⟨hends, h⟩ := Option.ite_none_right_eq_some.mp h
    obtain ⟨last, htime, heq⟩ := Option.bind_eq_some_iff.mp h
    obtain ⟨rfl, rfl⟩ := Prod.mk.inj (Option.some.inj heq)
    obtain ⟨rfl, hdigits, -⟩ := leadingNumeral_eq_some_iff.mp hnumeral
    exact ⟨rest, afterWords_eq_some_iff.mp hwords, hdigits, hends, timeAtEnd_eq_some_iff.mp htime⟩
  · rintro ⟨rest, htext, hstep, hends, htime⟩
    -- the character that ends the word is no digit, so the numeral ends there
    have hstop : ∀ c ∈ rest.head?, c.isDigit = false := by
      intro c hc
      obtain ⟨d, hd, hword⟩ := endsWord_iff.mp hends
      obtain rfl := Option.some.inj (hd.symm.trans hc)
      cases hdigit : d.isDigit with
      | false => rfl
      | true =>
          rw [isWordChar_of_isDigit hdigit] at hword
          cases hword
    refine Option.bind_eq_some_iff.mpr ⟨_, afterWords_eq_some_iff.mpr htext, ?_⟩
    refine Option.bind_eq_some_iff.mpr
      ⟨_, leadingNumeral_eq_some_iff.mpr ⟨rfl, hstep, hstop⟩, ?_⟩
    refine (if_pos hends).trans ?_
    exact Option.bind_eq_some_iff.mpr ⟨_, timeAtEnd_eq_some_iff.mpr htime, rfl⟩

/-- What ends the step's word is the first character between the step and the
    time, or the blank if there is nothing between. -/
theorem endsWord_between {between blanks time : List Char} {gap : Char} :
    endsWord (between ++ gap :: time ++ blanks) = true
      ↔ ∀ c ∈ (between ++ [gap]).head?, isWordChar c = false := by
  rw [endsWord_iff]
  cases between with
  | nil => simp
  | cons c between => simp

/-- The recogniser of a kind of step line finds the form of that kind. -/
theorem stepLine_words_iff {edge : StepEdge} {step time text : List Char} :
    stepLine (edge.words ++ [' ']) text = some (step, time) ↔ edge.Spells step time text := by
  rw [stepLine_eq_some_iff]
  constructor
  · rintro ⟨_, htext, hstep, hends, between, gap, blanks, rfl, htime, hline, hgap, hblanks⟩
    refine ⟨between, gap, blanks, ?_, hstep, htime, hline, hgap, endsWord_between.mp hends, hblanks⟩
    rw [htext]
    simp
  · rintro ⟨between, gap, blanks, rfl, hstep, htime, hline, hgap, hends, hblanks⟩
    refine ⟨between ++ gap :: time ++ blanks, by simp, hstep, endsWord_between.mpr hends,
      between, gap, blanks, rfl, htime, hline, hgap, hblanks⟩

/-- The first letters tell the two kinds apart. -/
theorem StepEdge.head?_words (edge : StepEdge) :
    edge.words.head? = match edge with
      | .start => some 'B'
      | .finish => some 'E' := by
  cases edge with
  | start => decide
  | finish => decide

/-- No text has the form of both kinds. -/
theorem StepEdge.Spells.edge_unique {edge other : StepEdge} {step time step' time' text : List Char}
    (h : edge.Spells step time text) (hother : other.Spells step' time' text) : edge = other := by
  have hfirst : ∀ {edge : StepEdge} {step time : List Char}, edge.Spells step time text →
      text.head? = edge.words.head? := by
    rintro edge step time ⟨between, gap, blanks, rfl, -⟩
    have hwords := edge.head?_words
    cases hlist : edge.words with
    | nil =>
        rw [hlist] at hwords
        cases edge <;> cases hwords
    | cons c words => rfl
  have hsame := (hfirst h).symm.trans (hfirst hother)
  rw [edge.head?_words, other.head?_words] at hsame
  cases edge with
  | start =>
      cases other with
      | start => rfl
      | finish => exact absurd hsame (by decide)
  | finish =>
      cases other with
      | start => exact absurd hsame (by decide)
      | finish => rfl

/-- A line that is no step line. -/
def WrittenMarker.OfCycle : WrittenMarker → Prop
  | .beginStep _ _ => False
  | .endStep _ _ => False
  | .startCycle _ _ => True
  | .endId _ _ => True
  | .waiting _ _ => True

/-- The other three recognisers find no step lines. -/
theorem ofCycle_of_recognise {text : List Char} {written : WrittenMarker}
    (h : recognise text = some written)
    (hno : ∀ edge : StepEdge, stepLine (edge.words ++ [' ']) text = none) : written.OfCycle := by
  have hstart : stepLine (beginWords ++ [' ']) text = none := hno .start
  have hfinish : stepLine "End Step ".toList text = none := hno .finish
  simp only [recognise] at h
  rw [hstart, hfinish] at h
  cases hcycle : cycleStartLine text with
  | some found =>
      rw [hcycle] at h
      cases h
      exact trivial
  | none =>
      cases hid : idEndLine text with
      | some found =>
          rw [hcycle, hid] at h
          cases h
          exact trivial
      | none =>
          cases hwaiting : waitingLine text with
          | some found =>
              rw [hcycle, hid, hwaiting] at h
              cases h
              exact trivial
          | none =>
              rw [hcycle, hid, hwaiting] at h
              cases h

theorem not_ofCycle_written (edge : StepEdge) (step time : List Char) :
    ¬ (edge.written step time).OfCycle := by
  cases edge with
  | start => exact id
  | finish => exact id

theorem StepEdge.written_inj {edge other : StepEdge} {step time step' time' : List Char}
    (h : edge.written step time = other.written step' time') :
    edge = other ∧ step = step' ∧ time = time' := by
  cases edge with
  | start =>
      cases other with
      | start =>
          obtain ⟨hstep, htime⟩ := WrittenMarker.beginStep.inj h
          exact ⟨rfl, hstep, htime⟩
      | finish => cases h
  | finish =>
      cases other with
      | start => cases h
      | finish =>
          obtain ⟨hstep, htime⟩ := WrittenMarker.endStep.inj h
          exact ⟨rfl, hstep, htime⟩

/-- A text with the form of a step line is recognised as that step line. -/
theorem StepEdge.Spells.recognised {edge : StepEdge} {step time text : List Char}
    (h : edge.Spells step time text) : recognise text = some (edge.written step time) := by
  have hown := stepLine_words_iff.mpr h
  simp only [recognise]
  cases edge with
  | start =>
      rw [show stepLine (beginWords ++ [' ']) text = some (step, time) from hown]
      rfl
  | finish =>
      -- the recogniser of begins is asked first and has to give way
      cases hstart : stepLine (beginWords ++ [' ']) text with
      | some found =>
          have hbegin : StepEdge.start.Spells found.1 found.2 text := stepLine_words_iff.mp hstart
          cases hbegin.edge_unique h
      | none =>
          rw [show stepLine "End Step ".toList text = some (step, time) from hown]
          rfl

/-- **RECOGNITION**: a text is taken for a step line exactly if it has the form
    of one, with the step and the time that stand there. -/
theorem recognise_eq_written_iff {edge : StepEdge} {step time text : List Char} :
    recognise text = some (edge.written step time) ↔ edge.Spells step time text := by
  refine ⟨?_, StepEdge.Spells.recognised⟩
  intro h
  -- a text without either form can only be a cycle line
  by_cases hspells : ∃ (other : StepEdge) (step' time' : List Char), other.Spells step' time' text
  · obtain ⟨other, step', time', hother⟩ := hspells
    have hsame := Option.some.inj (h.symm.trans hother.recognised)
    obtain ⟨rfl, rfl, rfl⟩ := StepEdge.written_inj hsame
    exact hother
  · refine absurd (ofCycle_of_recognise h ?_) (not_ofCycle_written edge step time)
    intro other
    cases hline : stepLine (other.words ++ [' ']) text with
    | none => rfl
    | some found => exact absurd ⟨other, found.1, found.2, stepLine_words_iff.mp hline⟩ hspells

/-! ## The outcome -/

/-- **THE OUTCOME**: the step is judged before the time, first by its size and
    then by the number of steps; leading zeros do not matter. -/
def StepEdge.outcome (edge : StepEdge) (step time : List Char) :
    Except MarkerError (Option Marker) :=
  if 0xffffffffffffffff < Numeral.value step then .error (.doesNotFit .step step)
  else if h : 1 ≤ Numeral.value step ∧ Numeral.value step ≤ 8 then
    if 0x7fffffffffffffff < Numeral.value time then .error (.doesNotFit .timestamp time)
    else .ok (some (edge.marker ⟨Numeral.value step - 1, by unfold stepCount; omega⟩
      (Numeral.value time)))
  else .error (.stepOutOfRange (Numeral.value step))

/-- A row of digits has no sign. -/
theorem IsNumeral.signedValue {digits : List Char} (h : IsNumeral digits) :
    Numeral.signedValue digits = Numeral.value digits := by
  cases digits with
  | nil => rfl
  | cons c digits =>
      have hc : c ≠ '-' := by
        rintro rfl
        exact absurd (h.2 '-' (List.mem_cons_self ..)) (by decide)
      simp only [Numeral.signedValue]
      split
      · next heq => exact absurd (List.cons.inj heq).1 hc
      · rfl

/-- The time of a step line is only compared with the greatest signed number. -/
theorem IsNumeral.readSigned {digits : List Char} (h : IsNumeral digits) (field : NumberField) :
    readSigned field digits
      = if 0x7fffffffffffffff < Numeral.value digits then .error (.doesNotFit field digits)
        else .ok (Numeral.value digits : Int) := by
  simp only [RunTimings.readSigned]
  rw [h.signedValue]
  by_cases hbig : 0x7fffffffffffffff < Numeral.value digits
  · rw [if_pos hbig, if_neg (by omega)]
  · rw [if_neg hbig, if_pos (by omega)]

/-- The step of a line is first compared with the greatest unsigned number. -/
theorem readStep_eq (numeral : List Char) :
    readStep numeral
      = if 0xffffffffffffffff < Numeral.value numeral then .error (.doesNotFit .step numeral)
        else if h : 1 ≤ Numeral.value numeral ∧ Numeral.value numeral ≤ 8 then
          .ok ⟨Numeral.value numeral - 1, by unfold stepCount; omega⟩
        else .error (.stepOutOfRange (Numeral.value numeral)) := by
  simp only [readStep, readUnsigned]
  by_cases hbig : 0xffffffffffffffff < Numeral.value numeral
  · rw [if_pos hbig, if_neg (by omega)]
    rfl
  · rw [if_neg hbig, if_pos (by omega)]
    rfl

/-- Reading a step line gives the outcome of its numerals. -/
theorem read_written (edge : StepEdge) (step : List Char) {time : List Char}
    (htime : IsNumeral time) :
    (edge.written step time).read.map some = edge.outcome step time := by
  have hread : (edge.written step time).read
      = (readStep step).bind fun index => (readSigned .timestamp time).bind fun timestamp =>
          .ok (edge.marker index timestamp) := by
    cases edge with
    | start => rfl
    | finish => rfl
  rw [hread, readStep_eq, htime.readSigned]
  simp only [StepEdge.outcome]
  by_cases hbig : 0xffffffffffffffff < Numeral.value step
  · rw [if_pos hbig, if_pos hbig]
    rfl
  · rw [if_neg hbig, if_neg hbig]
    by_cases hrange : 1 ≤ Numeral.value step ∧ Numeral.value step ≤ 8
    · rw [dif_pos hrange, dif_pos hrange]
      by_cases hlate : 0x7fffffffffffffff < Numeral.value time
      · rw [if_pos hlate, if_pos hlate]
        rfl
      · rw [if_neg hlate, if_neg hlate]
        rfl
    · rw [dif_neg hrange, dif_neg hrange]
      rfl

/-! ## Whole lines -/

/-- A line reports a step exactly as its two numerals say: the text by which the
    line is judged has the form of a step line. -/
def StepLine (edge : StepEdge) (step time line : List Char) : Prop :=
  ∃ text, JudgedBy line text ∧ edge.Spells step time text

/-- The line is taken for a step line, whatever its numerals come to. -/
def TakenForStep (line : List Char) : Prop :=
  ∃ (edge : StepEdge) (step time : List Char),
    recognise (relevantPart line) = some (edge.written step time)

/-- An outcome that only a step line can have: an event of a step, or a step
    that cannot be used. -/
def TellsOfStep : Except MarkerError (Option Marker) → Prop
  | .ok (some (.beginStep _ _)) => True
  | .ok (some (.endStep _ _)) => True
  | .error (.stepOutOfRange _) => True
  | .error (.doesNotFit .step _) => True
  | _ => False

theorem stepLine_iff {edge : StepEdge} {step time line : List Char} :
    StepLine edge step time line
      ↔ recognise (relevantPart line) = some (edge.written step time) := by
  rw [recognise_eq_written_iff]
  constructor
  · rintro ⟨text, hjudged, hspells⟩
    rw [judgedBy_iff.mp hjudged]
    exact hspells
  · intro hspells
    exact ⟨_, judgedBy_iff.mpr rfl, hspells⟩

/-- The two numerals of a cycle line are read one after the other, and neither of
    them as a step. -/
theorem not_tellsOfStep_of_numerals (cycle : List Char) {field : NumberField}
    (hfield : field ≠ .step) (numeral : List Char) {make : Nat → Int → Marker}
    (hmake : ∀ c n, ¬ TellsOfStep (.ok (some (make c n)))) :
    ¬ TellsOfStep (((readUnsigned .cycle cycle).bind fun c =>
      (readSigned field numeral).bind fun n => .ok (make c n)).map some) := by
  simp only [readUnsigned, readSigned]
  by_cases hc : Unsigned64 (Numeral.value cycle)
  · rw [if_pos hc]
    by_cases hn : Signed64 (Numeral.signedValue numeral)
    · rw [if_pos hn]
      exact hmake _ _
    · rw [if_neg hn]
      cases field with
      | step => exact absurd rfl hfield
      | _ => exact id
  · rw [if_neg hc]
    exact id

/-- The outcome of a cycle line does not tell of a step. -/
theorem not_tellsOfStep_of_ofCycle {written : WrittenMarker} (h : written.OfCycle) :
    ¬ TellsOfStep (written.read.map some) := by
  cases written with
  | beginStep step time => exact absurd h id
  | endStep step time => exact absurd h id
  | startCycle cycle time =>
      exact not_tellsOfStep_of_numerals cycle (by decide) time fun _ _ => id
  | endId cycle time => exact not_tellsOfStep_of_numerals cycle (by decide) time fun _ _ => id
  | waiting cycle wait => exact not_tellsOfStep_of_numerals cycle (by decide) wait fun _ _ => id

/-- A line whose outcome tells of a step has been taken for a step line. -/
theorem takenForStep_of_tellsOfStep {line : List Char} (h : TellsOfStep (classify line)) :
    TakenForStep line := by
  cases hform : recognise (relevantPart line) with
  | none =>
      rw [classify_of_unrecognised hform] at h
      exact absurd h id
  | some written =>
      cases written with
      | beginStep step time => exact ⟨.start, step, time, hform⟩
      | endStep step time => exact ⟨.finish, step, time, hform⟩
      | _ =>
          rw [classify_of_recognise hform] at h
          exact absurd h (not_tellsOfStep_of_ofCycle trivial)

/-- **STEP LINES**: a line is taken for a step line exactly if the text by which
    it is judged has the form of one; the form can be read in one way only, and
    it decides the outcome, which no other line shares. -/
theorem step_lines_exactly (line : List Char) :
    (TakenForStep line ↔ ∃ edge step time, StepLine edge step time line)
      ∧ (∀ edge step time, StepLine edge step time line →
        classify line = edge.outcome step time)
      ∧ (∀ edge step time edge' step' time', StepLine edge step time line →
        StepLine edge' step' time' line → edge = edge' ∧ step = step' ∧ time = time')
      ∧ (TellsOfStep (classify line) → ∃ edge step time, StepLine edge step time line) := by
  have htaken : TakenForStep line ↔ ∃ edge step time, StepLine edge step time line := by
    simp only [stepLine_iff]
    rfl
  refine ⟨htaken, ?_, ?_, fun h => htaken.mp (takenForStep_of_tellsOfStep h)⟩
  · intro edge step time h
    rw [classify_of_recognise (stepLine_iff.mp h)]
    obtain ⟨_, -, _, _, _, -, -, htime, -⟩ := h
    exact read_written edge step htime
  · intro edge step time edge' step' time' h h'
    have hsame := (stepLine_iff.mp h).symm.trans (stepLine_iff.mp h')
    exact StepEdge.written_inj (Option.some.inj hsame)

/-- Words in front, a leading zero, numbers in between, and a blank at the end. -/
example : classify "note: Begin Step 03 of 8, row 12 77 ".toList
    = .ok (some (.beginStep ⟨2, by decide⟩ 77)) := by decide +kernel

end RunTimings
