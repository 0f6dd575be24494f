import Mathlib.Data.List.Chain
import RunTimings.Proofs.StepLines

/-! # Cycle lines — three forms that the cut leaves alone

    A cycle line is fixed words, the cycle, a separator, a number, and blanks.
    In two of the three forms the cycle stands at the end of an id, a run
    without blanks in which the word `test` comes just before it.  The run may
    hold more pieces like `test7,`, and still the cycle is the numeral that the
    separator follows.

    * `CycleEvent.Spells` is the form, and `CycleEvent.outcome` what the two
      numerals come to;
    * `recognise_eq_cycle_iff` — the recognisers take a text for a cycle line
      exactly if it has the form;
    * `spells_relevantPart_iff` — the begin words occur in no cycle line, and
      what they open is none, so the cut neither hides a cycle line nor makes
      one;
    * `cycle_lines_exactly` — the same for whole lines, with the outcome. -/

namespace RunTimings

open RunTimings.Text

/-! ## The form -/

/-- The three events of a cycle that a line can tell. -/
inductive CycleEvent where
  | start
  | finish
  | wait
deriving DecidableEq, Repr

/-- The words that open the line. -/
def CycleEvent.words : CycleEvent → List Char
  | .start => "Start Cycle ".toList
  | .finish => "End ID: ".toList
  | .wait => "Waiting, id time: ".toList

/-- What stands between the cycle and the number. -/
def CycleEvent.separator : CycleEvent → List Char
  | .start => ": ".toList
  | .finish => ", ".toList
  | .wait => " ".toList

/-- An id up to and with the word before its cycle; it has no blanks. -/
def IsStem (label : List Char) : Prop :=
  ∃ name, label = name ++ "test".toList ∧ ∀ c ∈ name, isBlank c = false

/-- What stands between the words and the cycle: nothing, or the stem of an id. -/
def CycleEvent.IsLabel : CycleEvent → List Char → Prop
  | .start => (· = [])
  | .finish => IsStem
  | .wait => IsStem

/-- The number of the line; only a wait may have a sign. -/
def CycleEvent.IsNumber : CycleEvent → List Char → Prop
  | .start => IsNumeral
  | .finish => IsNumeral
  | .wait => IsSigned

/-- **THE FORM**: the text is made of the words, the label, the cycle, the
    separator, the number, and blanks. -/
def CycleEvent.Spells (event : CycleEvent) (cycle number text : List Char) : Prop :=
  ∃ label blanks,
    text = event.words ++ (label ++ (cycle ++ (event.separator ++ (number ++ blanks))))
      ∧ event.IsLabel label ∧ IsNumeral cycle ∧ event.IsNumber number
      ∧ ∀ c ∈ blanks, isBlank c = true

/-- The line as it is recognised. -/
def CycleEvent.written : CycleEvent → List Char → List Char → WrittenMarker
  | .start => .startCycle
  | .finish => .endId
  | .wait => .waiting

/-- The event that the line tells. -/
def CycleEvent.marker : CycleEvent → Nat → Int → Marker
  | .start => .startCycle
  | .finish => .endId
  | .wait => .waiting

/-- The name under which the number is reported. -/
def CycleEvent.field : CycleEvent → NumberField
  | .wait => .waitTime
  | _ => .timestamp

/-! ## Recognition -/

/-- The recogniser of each form. -/
def CycleEvent.line : CycleEvent → List Char → Option (List Char × List Char)
  | .start => cycleStartLine
  | .finish => idEndLine
  | .wait => waitingLine

/-- The start of a cycle, part by part. -/
theorem cycleStartLine_eq_some_iff {text cycle number : List Char} :
    cycleStartLine text = some (cycle, number) ↔ CycleEvent.start.Spells cycle number text := by
  simp only [cycleStartLine]
  constructor
  · intro h
    obtain ⟨afterFirst, hwords, h⟩ := Option.bind_eq_some_iff.mp h
    obtain ⟨⟨digits, afterCycle⟩, hcycle, h⟩ := Option.bind_eq_some_iff.mp h
    obtain ⟨rest, hcolon, h⟩ := Option.bind_eq_some_iff.mp h
    obtain ⟨time, hnumber, heq⟩ := Option.bind_eq_some_iff.mp h
    obtain ⟨rfl, rfl⟩ := Prod.mk.inj (Option.some.inj heq)
    obtain ⟨rfl, hdigits, -⟩ := leadingNumeral_eq_some_iff.mp hcycle
    obtain rfl := afterWords_eq_some_iff.mp hcolon
    obtain ⟨blanks, rfl, htime, hblanks⟩ := lastNumeral_leading_iff.mp hnumber
    exact ⟨[], blanks, afterWords_eq_some_iff.mp hwords, rfl, hdigits, htime, hblanks⟩
  · rintro ⟨_, blanks, htext, rfl, hcycle, hnumber, hblanks⟩
    have hcolon : ∀ c ∈ (": ".toList ++ (number ++ blanks)).head?, c.isDigit = false := by
      intro c hc
      obtain rfl := Option.some.inj hc
      decide
    refine Option.bind_eq_some_iff.mpr ⟨_, afterWords_eq_some_iff.mpr htext, ?_⟩
    refine Option.bind_eq_some_iff.mpr
      ⟨(cycle, _), leadingNumeral_eq_some_iff.mpr ⟨rfl, hcycle, hcolon⟩, ?_⟩
    refine Option.bind_eq_some_iff.mpr ⟨number ++ blanks, afterWords_eq_some_iff.mpr rfl, ?_⟩
    exact Option.bind_eq_some_iff.mpr
      ⟨_, lastNumeral_leading_iff.mpr ⟨blanks, rfl, hnumber, hblanks⟩, rfl⟩

/-- The cycle of an id is the numeral at its end, if the word `test` is just
    before it; another `test` or numeral further to the front does not count. -/
theorem cycleOfId_eq_some_iff {id cycle : List Char} :
    cycleOfId id = some cycle
      ↔ ∃ name, id = name ++ "test".toList ++ cycle ∧ IsNumeral cycle := by
  simp only [cycleOfId]
  constructor
  · intro h
    obtain ⟨before, hwords, h⟩ := Option.bind_eq_some_iff.mp h
    obtain ⟨hne, heq⟩ := Option.ite_none_left_eq_some.mp h
    obtain ⟨hid, hdigits, -⟩ :=
      span_iff.mp ⟨rfl, afterWords_eq_some_iff.mp hwords⟩
    have hcycle : IsNumeral cycle := Option.some.inj heq ▸ IsNumeral.reverse ⟨hne, hdigits⟩
    refine ⟨before.reverse, ?_, hcycle⟩
    rw [← List.reverse_reverse id, hid, ← Option.some.inj heq]
    simp
  · rintro ⟨name, rfl, hcycle⟩
    have hback : (name ++ "test".toList ++ cycle).reverse
        = cycle.reverse ++ ("test".toList.reverse ++ name.reverse) := by simp
    have hlast : ∀ c ∈ ("test".toList.reverse ++ name.reverse).head?, c.isDigit = false := by
      intro c hc
      obtain rfl := Option.some.inj hc
      decide
    obtain ⟨hrun, hdrop⟩ := span_iff.mpr ⟨hback, hcycle.reverse.2, hlast⟩
    rw [hrun, hdrop]
    refine Option.bind_eq_some_iff.mpr ⟨_, afterWords_eq_some_iff.mpr rfl, ?_⟩
    rw [if_neg hcycle.reverse.1, List.reverse_reverse]

/-- A token and what follows the space after it, as a splitting of the text. -/
theorem token_iff {text token rest : List Char} :
    ((text.takeWhile fun c => !isBlank c) = token
        ∧ afterWords " ".toList (text.dropWhile fun c => !isBlank c) = some rest)
      ↔ text = token ++ ' ' :: rest ∧ ∀ c ∈ token, isBlank c = false := by
  rw [afterWords_eq_some_iff, span_iff]
  constructor
  · rintro ⟨htext, htoken, -⟩
    exact ⟨htext, fun c hc => by simpa using htoken c hc⟩
  · rintro ⟨htext, htoken⟩
    refine ⟨htext, fun c hc => by simp [htoken c hc], ?_⟩
    intro c hc
    obtain rfl := Option.some.inj hc
    decide

theorem no_blank_of_any {text : List Char} (h : text.any isBlank = false) :
    ∀ c ∈ text, isBlank c = false :=
  fun c hc => Bool.eq_false_iff.mpr (List.any_eq_false.mp h c hc)

/-- A token that is an id and what closes it, before a space: the stem, the cycle
    and the closing characters stand at the start of the text. -/
theorem stem_iff {text rest cycle closing : List Char} (hcycle : IsNumeral cycle)
    (hclosing : ∀ c ∈ closing, isBlank c = false) :
    (∃ name, (text.takeWhile fun c => !isBlank c) = name ++ "test".toList ++ cycle ++ closing
        ∧ afterWords " ".toList (text.dropWhile fun c => !isBlank c) = some rest)
      ↔ ∃ label, IsStem label ∧ text = label ++ (cycle ++ (closing ++ ' ' :: rest)) := by
  have htest : ∀ c ∈ "test".toList, isBlank c = false := no_blank_of_any (by decide)
  have hdigits : ∀ c ∈ cycle, isBlank c = false := fun c hc => isBlank_of_isDigit (hcycle.2 c hc)
  constructor
  · rintro ⟨name, hrun, hspace⟩
    obtain ⟨htext, htoken⟩ := token_iff.mp ⟨hrun, hspace⟩
    refine ⟨name ++ "test".toList, ⟨name, rfl, fun c hc => htoken c (by simp [hc])⟩, ?_⟩
    rw [htext]
    simp only [List.append_assoc]
  · rintro ⟨_, ⟨name, rfl, hname⟩, rfl⟩
    have htoken : ∀ c ∈ name ++ "test".toList ++ cycle ++ closing, isBlank c = false := by
      simp only [List.forall_mem_append]
      exact ⟨⟨⟨hname, htest⟩, hdigits⟩, hclosing⟩
    refine ⟨name, token_iff.mpr ⟨?_, htoken⟩⟩
    simp only [List.append_assoc]

/-- The end of a cycle's id, part by part; the comma closes the token. -/
theorem idEndLine_eq_some_iff {text cycle number : List Char} :
    idEndLine text = some (cycle, number) ↔ CycleEvent.finish.Spells cycle number text := by
  have hclosing : ∀ c ∈ [','], isBlank c = false := no_blank_of_any (by decide)
  simp only [idEndLine]
  constructor
  · intro h
    obtain ⟨afterFirst, hwords, h⟩ := Option.bind_eq_some_iff.mp h
    have hcomma : (afterFirst.takeWhile fun c => !isBlank c).getLast? = some ',' := by
      refine Classical.byContradiction fun hno => ?_
      rw [if_neg hno] at h
      cases h
    rw [if_pos hcomma] at h
    obtain ⟨digits, hid, h⟩ := Option.bind_eq_some_iff.mp h
    obtain ⟨rest, hspace, h⟩ := Option.bind_eq_some_iff.mp h
    obtain ⟨time, hnumber, heq⟩ := Option.bind_eq_some_iff.mp h
    obtain ⟨rfl, rfl⟩ := Prod.mk.inj (Option.some.inj heq)
    obtain ⟨name, hname, hdigits⟩ := cycleOfId_eq_some_iff.mp hid
    obtain ⟨blanks, rfl, htime, hblanks⟩ := lastNumeral_leading_iff.mp hnumber
    -- the token is the id and the comma after it
    have htoken := (List.dropLast_append_getLast? ',' hcomma).symm
    rw [hname] at htoken
    obtain ⟨label, hlabel, htext⟩ := (stem_iff hdigits hclosing).mp ⟨name, htoken, hspace⟩
    refine ⟨label, blanks, ?_, hlabel, hdigits, htime, hblanks⟩
    rw [afterWords_eq_some_iff.mp hwords, htext]
    rfl
  · rintro ⟨label, blanks, htext, hlabel, hcycle, hnumber, hblanks⟩
    have hline : text = "End ID: ".toList
        ++ (label ++ (cycle ++ ([','] ++ ' ' :: (number ++ blanks)))) := htext
    obtain ⟨name, hrun, hspace⟩ := (stem_iff hcycle hclosing).mpr ⟨label, hlabel, rfl⟩
    refine Option.bind_eq_some_iff.mpr ⟨_, afterWords_eq_some_iff.mpr hline, ?_⟩
    rw [hrun, if_pos List.getLast?_concat, List.dropLast_concat]
    refine Option.bind_eq_some_iff.mpr ⟨_, cycleOfId_eq_some_iff.mpr ⟨name, rfl, hcycle⟩, ?_⟩
    refine Option.bind_eq_some_iff.mpr ⟨_, hspace, ?_⟩
    exact Option.bind_eq_some_iff.mpr
      ⟨_, lastNumeral_leading_iff.mpr ⟨blanks, rfl, hnumber, hblanks⟩, rfl⟩

/-- The wait of a cycle's id, part by part; nothing closes the token. -/
theorem waitingLine_eq_some_iff {text cycle number : List Char} :
    waitingLine text = some (cycle, number) ↔ CycleEvent.wait.Spells cycle number text := by
  have hclosing : ∀ c ∈ ([] : List Char), isBlank c = false := no_blank_of_any rfl
  simp only [waitingLine]
  constructor
  · intro h
    obtain ⟨afterFirst, hwords, h⟩ := Option.bind_eq_some_iff.mp h
    obtain ⟨digits, hid, h⟩ := Option.bind_eq_some_iff.mp h
    obtain ⟨rest, hspace, h⟩ := Option.bind_eq_some_iff.mp h
    obtain ⟨wait, hnumber, heq⟩ := Option.bind_eq_some_iff.mp h
    obtain ⟨rfl, rfl⟩ := Prod.mk.inj (Option.some.inj heq)
    obtain ⟨name, htoken, hdigits⟩ := cycleOfId_eq_some_iff.mp hid
    obtain ⟨blanks, rfl, hwait, hblanks⟩ := lastNumeral_leadingSigned_iff.mp hnumber
    rw [← List.append_nil (name ++ "test".toList ++ digits)] at htoken
    obtain ⟨label, hlabel, htext⟩ := (stem_iff hdigits hclosing).mp ⟨name, htoken, hspace⟩
    refine ⟨label, blanks, ?_, hlabel, hdigits, hwait, hblanks⟩
    rw [afterWords_eq_some_iff.mp hwords, htext]
    rfl
  · rintro ⟨label, blanks, htext, hlabel, hcycle, hnumber, hblanks⟩
    obtain ⟨name, hrun, hspace⟩ := (stem_iff hcycle hclosing).mpr ⟨label, hlabel, rfl⟩
    rw [List.append_nil] at hrun
    refine Option.bind_eq_some_iff.mpr ⟨_, afterWords_eq_some_iff.mpr htext, ?_⟩
    refine Option.bind_eq_some_iff.mpr
      ⟨_, cycleOfId_eq_some_iff.mpr ⟨name, hrun, hcycle⟩, ?_⟩
    refine Option.bind_eq_some_iff.mpr ⟨_, hspace, ?_⟩
    exact Option.bind_eq_some_iff.mpr
      ⟨_, lastNumeral_leadingSigned_iff.mpr ⟨blanks, rfl, hnumber, hblanks⟩, rfl⟩

/-- The recogniser of a kind of cycle line finds the form of that kind. -/
theorem CycleEvent.line_eq_some_iff {event : CycleEvent} {cycle number text : List Char} :
    event.line text = some (cycle, number) ↔ event.Spells cycle number text := by
  cases event with
  | start => exact cycleStartLine_eq_some_iff
  | finish => exact idEndLine_eq_some_iff
  | wait => exact waitingLine_eq_some_iff

/-! ## The words in front

    The first five characters of a line tell all kinds of marker lines apart. -/

/-- A text that is opened by long enough words begins like them. -/
theorem take_five_append {words rest : List Char} (h : 5 ≤ words.length) :
    (words ++ rest).take 5 = words.take 5 :=
  List.take_append_of_le_length h

theorem CycleEvent.Spells.take_five {event : CycleEvent} {cycle number text : List Char}
    (h : event.Spells cycle number text) : text.take 5 = event.words.take 5 := by
  obtain ⟨label, blanks, rfl, -⟩ := h
  refine take_five_append ?_
  cases event with
  | start => decide
  | finish => decide
  | wait => decide

theorem StepEdge.Spells.take_five {edge : StepEdge} {step time text : List Char}
    (h : edge.Spells step time text) : text.take 5 = edge.words.take 5 := by
  obtain ⟨between, gap, blanks, rfl, -⟩ := h
  simp only [List.append_assoc]
  refine take_five_append ?_
  cases edge with
  | start => decide
  | finish => decide

/-- No text has the form of two kinds of cycle lines. -/
theorem CycleEvent.Spells.event_unique {event other : CycleEvent}
    {cycle number cycle' number' text : List Char} (h : event.Spells cycle number text)
    (hother : other.Spells cycle' number' text) : event = other := by
  have hwords : event.words.take 5 = other.words.take 5 := h.take_five.symm.trans hother.take_five
  revert hwords
  cases event with
  | start => cases other <;> decide
  | finish => cases other <;> decide
  | wait => cases other <;> decide

/-- No text has the form of a step line and of a cycle line. -/
theorem CycleEvent.Spells.not_step {event : CycleEvent} {cycle number text : List Char}
    (h : event.Spells cycle number text) (edge : StepEdge) (step time : List Char) :
    ¬ edge.Spells step time text := by
  intro hstep
  have hwords : event.words.take 5 = edge.words.take 5 := h.take_five.symm.trans hstep.take_five
  revert hwords
  cases event with
  | start => cases edge <;> decide
  | finish => cases edge <;> decide
  | wait => cases edge <;> decide

/-- What the begin words open has no form of a cycle line. -/
theorem CycleEvent.Spells.not_begin {event : CycleEvent} {cycle number text : List Char}
    (h : event.Spells cycle number text) : ¬ beginWords <+: text := by
  rintro ⟨rest, rfl⟩
  have hwords : event.words.take 5 = beginWords.take 5 :=
    h.take_five.symm.trans (take_five_append (by decide))
  revert hwords
  cases event with
  | start => decide
  | finish => decide
  | wait => decide

/-! ## Recognition of all forms -/

/-- The kind and the numerals of a cycle line. -/
def WrittenMarker.cycleParts : WrittenMarker → Option (CycleEvent × List Char × List Char)
  | .startCycle cycle number => some (.start, cycle, number)
  | .endId cycle number => some (.finish, cycle, number)
  | .waiting cycle number => some (.wait, cycle, number)
  | .beginStep _ _ => none
  | .endStep _ _ => none

theorem CycleEvent.cycleParts_written (event : CycleEvent) (cycle number : List Char) :
    (event.written cycle number).cycleParts = some (event, cycle, number) := by
  cases event with
  | start => rfl
  | finish => rfl
  | wait => rfl

theorem CycleEvent.written_inj {event other : CycleEvent}
    {cycle number cycle' number' : List Char}
    (h : event.written cycle number = other.written cycle' number') :
    event = other ∧ cycle = cycle' ∧ number = number' := by
  have hparts := congrArg WrittenMarker.cycleParts h
  rw [cycleParts_written, cycleParts_written] at hparts
  obtain ⟨hevent, hrest⟩ := Prod.mk.inj (Option.some.inj hparts)
  exact ⟨hevent, Prod.mk.inj hrest⟩

/-- The recognisers of step lines pass over a text without their form. -/
theorem stepLine_eq_none {edge : StepEdge} {text : List Char}
    (h : ∀ step time, ¬ edge.Spells step time text) :
    stepLine (edge.words ++ [' ']) text = none := by
  cases hline : stepLine (edge.words ++ [' ']) text with
  | none => rfl
  | some found => exact absurd (stepLine_words_iff.mp hline) (h found.1 found.2)

/-- A recogniser of cycle lines passes over a text without its form. -/
theorem CycleEvent.line_eq_none {event : CycleEvent} {text : List Char}
    (h : ∀ cycle number, ¬ event.Spells cycle number text) : event.line text = none := by
  cases hline : event.line text with
  | none => rfl
  | some found => exact absurd (line_eq_some_iff.mp hline) (h found.1 found.2)

/-- The recognition of a text that is no step line. -/
theorem recognise_of_no_step {text : List Char}
    (h : ∀ (edge : StepEdge) (step time : List Char), ¬ edge.Spells step time text) :
    recognise text
      = ((CycleEvent.start.line text).map (fun (cycle, time) => .startCycle cycle time)
          <|> (CycleEvent.finish.line text).map (fun (cycle, time) => .endId cycle time)
          <|> (CycleEvent.wait.line text).map (fun (cycle, wait) => .waiting cycle wait)) := by
  have hstart : stepLine (beginWords ++ [' ']) text = none := stepLine_eq_none (h .start)
  have hfinish : stepLine "End Step ".toList text = none := stepLine_eq_none (h .finish)
  simp only [recognise]
  rw [hstart, hfinish]
  rfl

/-- A text with the form of a cycle line is recognised as that cycle line. -/
theorem CycleEvent.Spells.recognised {event : CycleEvent} {cycle number text : List Char}
    (h : event.Spells cycle number text) :
    recognise text = some (event.written cycle number) := by
  have hline := line_eq_some_iff.mpr h
  -- the recognisers of the other kinds give way
  have hother : ∀ other : CycleEvent, other ≠ event → other.line text = none := fun other hne =>
    line_eq_none fun _ _ hspells => hne (hspells.event_unique h)
  rw [recognise_of_no_step h.not_step]
  cases event with
  | start =>
      rw [hline]
      rfl
  | finish =>
      rw [hother .start (by decide), hline]
      rfl
  | wait =>
      rw [hother .start (by decide), hother .finish (by decide), hline]
      rfl

/-- A text without any of the five forms is not recognised. -/
theorem recognise_eq_none {text : List Char}
    (hstep : ∀ (edge : StepEdge) (step time : List Char), ¬ edge.Spells step time text)
    (hcycle : ∀ (event : CycleEvent) (cycle number : List Char),
      ¬ event.Spells cycle number text) : recognise text = none := by
  rw [recognise_of_no_step hstep, CycleEvent.line_eq_none (hcycle .start),
    CycleEvent.line_eq_none (hcycle .finish), CycleEvent.line_eq_none (hcycle .wait)]
  rfl

/-- **RECOGNITION**: a text is taken for a cycle line exactly if it has the form
    of one, with the numerals that stand there. -/
theorem recognise_eq_cycle_iff {event : CycleEvent} {cycle number text : List Char} :
    recognise text = some (event.written cycle number) ↔ event.Spells cycle number text := by
  refine ⟨?_, CycleEvent.Spells.recognised⟩
  intro h
  by_cases hcycle : ∃ (other : CycleEvent) (cycle' number' : List Char),
      other.Spells cycle' number' text
  · obtain ⟨other, cycle', number', hother⟩ := hcycle
    have hsame := Option.some.inj (h.symm.trans hother.recognised)
    obtain ⟨rfl, rfl, rfl⟩ := CycleEvent.written_inj hsame
    exact hother
  · -- without a cycle form the text is a step line or nothing
    by_cases hstep : ∃ (edge : StepEdge) (step time : List Char), edge.Spells step time text
    · obtain ⟨edge, step, time, hspells⟩ := hstep
      have hsame := congrArg WrittenMarker.cycleParts
        (Option.some.inj (h.symm.trans hspells.recognised))
      rw [CycleEvent.cycleParts_written] at hsame
      cases edge <;> cases hsame
    · rw [recognise_eq_none (fun edge step time hs => hstep ⟨edge, step, time, hs⟩)
        (fun other c n hs => hcycle ⟨other, c, n, hs⟩)] at h
      cases h

/-! ## The cut -/

/-- A pair of characters that the begin words do not have in this order. -/
def NoSpaceAfterN (first second : Char) : Prop :=
  first = 'n' → second ≠ ' '

instance : DecidableRel NoSpaceAfterN := fun first second =>
  inferInstanceAs (Decidable (first = 'n' → second ≠ ' '))

theorem isChain_of_no_n {text : List Char} (h : 'n' ∉ text) : text.IsChain NoSpaceAfterN := by
  refine List.Pairwise.isChain (List.pairwise_of_forall_mem_list ?_)
  intro first hfirst _ _ heq
  exact absurd (heq ▸ hfirst) h

theorem isChain_of_no_blank {text : List Char} (h : ∀ c ∈ text, isBlank c = false) :
    text.IsChain NoSpaceAfterN := by
  refine List.Pairwise.isChain (List.pairwise_of_forall_mem_list ?_)
  rintro _ _ second hsecond - rfl
  exact absurd (h ' ' hsecond) (by decide)

/-- After the label of a cycle line there is no letter n. -/
theorem CycleEvent.no_n_after_label {event : CycleEvent} {cycle number blanks : List Char}
    (hcycle : IsNumeral cycle) (hnumber : event.IsNumber number)
    (hblanks : ∀ c ∈ blanks, isBlank c = true) :
    'n' ∉ cycle ++ (event.separator ++ (number ++ blanks)) := by
  have hdigits : ∀ {digits : List Char}, IsNumeral digits → 'n' ∉ digits := fun hnumeral hmem =>
    absurd (hnumeral.2 'n' hmem) (by decide)
  have hseparator : 'n' ∉ event.separator := by
    cases event with
    | start => decide
    | finish => decide
    | wait => decide
  have hsigned : ∀ {numeral : List Char}, IsSigned numeral → 'n' ∉ numeral := by
    rintro numeral (hplain | ⟨digits, rfl, hnumeral⟩)
    · exact hdigits hplain
    · exact fun hmem => (List.mem_cons.mp hmem).elim (by decide) (hdigits hnumeral)
  have hnone : 'n' ∉ number := by
    cases event with
    | start => exact hdigits hnumber
    | finish => exact hdigits hnumber
    | wait => exact hsigned hnumber
  have hblank : 'n' ∉ blanks := fun hmem => absurd (hblanks 'n' hmem) (by decide)
  simp only [List.mem_append, not_or]
  exact ⟨hdigits hcycle, hseparator, hnone, hblank⟩

/-- Nowhere in a cycle line does a space follow the letter n: the words have none
    such, and the name of an id, the only free part, has no space at all. -/
theorem CycleEvent.Spells.isChain {event : CycleEvent} {cycle number text : List Char}
    (h : event.Spells cycle number text) : text.IsChain NoSpaceAfterN := by
  obtain ⟨label, blanks, rfl, hlabel, hcycle, hnumber, hblanks⟩ := h
  have hrest := event.no_n_after_label hcycle hnumber hblanks
  generalize cycle ++ (event.separator ++ (number ++ blanks)) = rest at hrest
  -- what follows the words: a name without blanks, and then no letter n
  have hafter : (label ++ rest).IsChain NoSpaceAfterN := by
    have hstem : ∀ {label : List Char}, IsStem label → (label ++ rest).IsChain NoSpaceAfterN := by
      rintro _ ⟨name, rfl, hname⟩
      rw [List.append_assoc]
      refine (isChain_of_no_blank hname).append (isChain_of_no_n ?_) ?_
      · simp only [List.mem_append, not_or]
        exact ⟨by decide, hrest⟩
      · rintro _ _ second hsecond - rfl
        cases hsecond
    cases event with
    | start =>
        rw [show label = [] from hlabel]
        exact isChain_of_no_n hrest
    | finish => exact hstem hlabel
    | wait => exact hstem hlabel
  have hwords : event.words.IsChain NoSpaceAfterN := by
    cases event with
    | start => decide
    | finish => decide
    | wait => decide
  have hspace : event.words.getLast? = some ' ' := by
    cases event with
    | start => decide
    | finish => decide
    | wait => decide
  refine hwords.append hafter ?_
  rintro last hlast _ - rfl
  rw [hspace] at hlast
  cases hlast

/-- A cycle line is judged by all of its text. -/
theorem CycleEvent.Spells.judgedBy_self {event : CycleEvent} {cycle number line : List Char}
    (h : event.Spells cycle number line) : JudgedBy line line := by
  refine .inr ⟨rfl, ?_⟩
  intro earlier later heq hprefix
  have hinfix : beginWords <:+: line := heq ▸ hprefix.isInfix.trans (List.suffix_append _ _).isInfix
  have hchain : beginWords.IsChain NoSpaceAfterN := List.IsChain.infix h.isChain hinfix
  exact absurd hchain (by decide)

/-- **THE CUT** does not matter to cycle lines: a line has the form of one exactly
    if what the recognisers are handed of it has. -/
theorem CycleEvent.spells_relevantPart_iff {event : CycleEvent} {cycle number line : List Char} :
    event.Spells cycle number (relevantPart line) ↔ event.Spells cycle number line := by
  constructor
  · intro h
    -- a part that was cut off at the begin words has no such form
    rcases judgedBy_relevantPart line with hfirst | ⟨heq, -⟩
    · exact absurd hfirst.opens h.not_begin
    · rwa [heq] at h
  · intro h
    rwa [judgedBy_iff.mp h.judgedBy_self]

/-! ## The outcome -/

/-- **THE OUTCOME**: the cycle is judged before the number, each by the range of
    its kind; leading zeros do not matter. -/
def CycleEvent.outcome (event : CycleEvent) (cycle number : List Char) :
    Except MarkerError (Option Marker) :=
  if 0xffffffffffffffff < Numeral.value cycle then .error (.doesNotFit .cycle cycle)
  else if -0x8000000000000000 ≤ Numeral.signedValue number
      ∧ Numeral.signedValue number ≤ 0x7fffffffffffffff then
    .ok (some (event.marker (Numeral.value cycle) (Numeral.signedValue number)))
  else .error (.doesNotFit event.field number)

/-- Reading a cycle line gives the outcome of its numerals. -/
theorem CycleEvent.read_written (event : CycleEvent) (cycle number : List Char) :
    (event.written cycle number).read.map some = event.outcome cycle number := by
  have hread : (event.written cycle number).read
      = (readUnsigned .cycle cycle).bind fun index =>
          (readSigned event.field number).bind fun n => .ok (event.marker index n) := by
    cases event with
    | start => rfl
    | finish => rfl
    | wait => rfl
  rw [hread]
  simp only [readUnsigned, readSigned, CycleEvent.outcome]
  by_cases hbig : 0xffffffffffffffff < Numeral.value cycle
  · rw [if_pos hbig, if_neg (by omega)]
    rfl
  · rw [if_neg hbig, if_pos (by omega)]
    by_cases hfits : Signed64 (Numeral.signedValue number)
    · rw [if_pos hfits, if_pos (by omega)]
      rfl
    · rw [if_neg hfits, if_neg (by omega)]
      rfl

/-- An outcome that only a cycle line can have: an event of a cycle, or a cycle
    or a wait that does not fit. -/
def TellsOfCycle : Except MarkerError (Option Marker) → Prop
  | .ok (some (.startCycle _ _)) => True
  | .ok (some (.endId _ _)) => True
  | .ok (some (.waiting _ _)) => True
  | .error (.doesNotFit .cycle _) => True
  | .error (.doesNotFit .waitTime _) => True
  | _ => False

/-- The line yields a cycle outcome.  That a timestamp does not fit can also be
    the outcome of a step line. -/
def YieldsCycle (line : List Char) : Prop :=
  TellsOfCycle (classify line)
    ∨ (∃ time, classify line = .error (.doesNotFit .timestamp time)) ∧ ¬ TakenForStep line

/-- The outcome of a step line tells of no cycle. -/
theorem not_tellsOfCycle_step (edge : StepEdge) (step time : List Char) :
    ¬ TellsOfCycle (edge.outcome step time) := by
  simp only [StepEdge.outcome]
  split
  · exact id
  · split
    · split
      · exact id
      · cases edge with
        | start => exact id
        | finish => exact id
    · exact id

/-- A line that has the form of a cycle line is not taken for a step line. -/
theorem CycleEvent.Spells.not_takenForStep {event : CycleEvent} {cycle number line : List Char}
    (h : event.Spells cycle number line) : ¬ TakenForStep line := by
  rintro ⟨edge, step, time, hform⟩
  exact (spells_relevantPart_iff.mpr h).not_step edge step time (recognise_eq_written_iff.mp hform)

/-- A line with the form of a cycle line has the outcome of its numerals. -/
theorem CycleEvent.Spells.classified {event : CycleEvent} {cycle number line : List Char}
    (h : event.Spells cycle number line) : classify line = event.outcome cycle number := by
  rw [classify_of_recognise (spells_relevantPart_iff.mpr h).recognised, read_written]

/-- A line with neither form is noise. -/
theorem classify_of_no_form {line : List Char} (hstep : ¬ TakenForStep line)
    (hcycle : ∀ (event : CycleEvent) (cycle number : List Char),
      ¬ event.Spells cycle number line) : classify line = .ok none := by
  refine classify_of_unrecognised (recognise_eq_none ?_ ?_)
  · intro edge step time hspells
    exact hstep ⟨edge, step, time, recognise_eq_written_iff.mpr hspells⟩
  · intro event cycle number hspells
    exact hcycle event cycle number (CycleEvent.spells_relevantPart_iff.mp hspells)

/-- A cycle outcome comes from a line with the form of a cycle line. -/
theorem spells_of_yieldsCycle {line : List Char} (h : YieldsCycle line) :
    ∃ (event : CycleEvent) (cycle number : List Char), event.Spells cycle number line := by
  refine Classical.byContradiction fun hnone => ?_
  have hcycle : ∀ (event : CycleEvent) (cycle number : List Char),
      ¬ event.Spells cycle number line :=
    fun event cycle number hspells => hnone ⟨event, cycle, number, hspells⟩
  by_cases hstep : TakenForStep line
  · -- a step line has none of the outcomes that are a cycle's alone
    rcases h with htells | ⟨-, hno⟩
    · obtain ⟨edge, step, time, hform⟩ := hstep
      obtain ⟨_, _, _, _, _, htime, -⟩ := recognise_eq_written_iff.mp hform
      rw [classify_of_recognise hform, read_written edge step htime] at htells
      exact not_tellsOfCycle_step edge step time htells
    · exact hno hstep
  · rcases h with htells | ⟨⟨time, hfault⟩, -⟩
    · rw [classify_of_no_form hstep hcycle] at htells
      exact htells
    · rw [classify_of_no_form hstep hcycle] at hfault
      cases hfault

/-- The outcome of a cycle line is a cycle outcome. -/
theorem CycleEvent.Spells.yieldsCycle {event : CycleEvent} {cycle number line : List Char}
    (h : event.Spells cycle number line) : YieldsCycle line := by
  simp only [YieldsCycle]
  rw [h.classified]
  simp only [CycleEvent.outcome]
  split
  · exact .inl trivial
  · split
    · refine .inl ?_
      cases event with
      | start => exact trivial
      | finish => exact trivial
      | wait => exact trivial
    · cases event with
      | start => exact .inr ⟨⟨number, rfl⟩, h.not_takenForStep⟩
      | finish => exact .inr ⟨⟨number, rfl⟩, h.not_takenForStep⟩
      | wait => exact .inl trivial

/-- **CYCLE LINES**: a line yields a cycle outcome exactly if the line, uncut, has
    the form of a cycle line; the form can be read in one way only and decides
    the outcome; and a line that has no such form and is no step line is noise. -/
theorem cycle_lines_exactly (line : List Char) :
    (YieldsCycle line ↔ ∃ event cycle number, CycleEvent.Spells event cycle number line)
      ∧ (∀ event cycle number, CycleEvent.Spells event cycle number line →
        classify line = event.outcome cycle number)
      ∧ (∀ event cycle number event' cycle' number',
        CycleEvent.Spells event cycle number line → CycleEvent.Spells event' cycle' number' line →
          event = event' ∧ cycle = cycle' ∧ number = number')
      ∧ ((∀ event cycle number, ¬ CycleEvent.Spells event cycle number line) →
        ¬ TakenForStep line → classify line = .ok none) := by
  refine ⟨⟨spells_of_yieldsCycle, ?_⟩, ?_, ?_, fun hcycle hstep => classify_of_no_form hstep hcycle⟩
  · rintro ⟨event, cycle, number, h⟩
    exact h.yieldsCycle
  · exact fun event cycle number h => h.classified
  · intro event cycle number event' cycle' number' h h'
    exact CycleEvent.written_inj (Option.some.inj (h.recognised.symm.trans h'.recognised))

/-- An id that looks like the end of one at several places, and a sign. -/
example : classify "Waiting, id time: xtest5,test07 -003 ".toList
    = .ok (some (.waiting 7 (-3))) := by decide +kernel

end RunTimings
