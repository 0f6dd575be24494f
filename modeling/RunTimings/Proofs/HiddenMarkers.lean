import RunTimings.Proofs.CycleLines

/-! # Hidden markers — what the cut takes away

    A line is compared with the forms only after it has been cut at the first
    begin words.  The free text of a step line may hold these words, and then
    the line is judged by its tail alone: the marker that the whole line, or a
    later part of it, spells is passed over.

    * `SpellsMarker` is what a reader sees in a line before any cut;
    * `classify_eq_none_iff` — a line is noise exactly if none of the forms is
      that of the text by which it is judged;
    * `noise_exactly` — so a line is noise if it spells no marker, and else
      exactly if the begin words occur in it and do not open a begin marker
      where they occur first.  Cycle lines are never lost.
    * `not_every_marker_is_kept` — an end marker that is lost. -/

namespace RunTimings

/-- The line, uncut, has one of the five forms; a begin marker may stand after
    other text. -/
inductive SpellsMarker (line : List Char) : Prop where
  | start (before text step time : List Char) (split : line = before ++ text)
      (spells : StepEdge.start.Spells step time text)
  | finish (step time : List Char) (spells : StepEdge.finish.Spells step time line)
  | cycle (event : CycleEvent) (index number : List Char)
      (spells : event.Spells index number line)

/-- A begin marker begins with its words. -/
theorem opens_of_spells_start {step time text : List Char}
    (h : StepEdge.start.Spells step time text) : beginWords <+: text := by
  obtain ⟨between, gap, blanks, rfl, -⟩ := h
  simp only [List.append_assoc]
  exact List.prefix_append _ _

/-- What the begin words open is no end marker. -/
theorem not_spells_finish_of_opens {text : List Char} (h : beginWords <+: text)
    (step time : List Char) : ¬ StepEdge.finish.Spells step time text := by
  obtain ⟨rest, rfl⟩ := h
  intro hspells
  have hwords : beginWords.take 5 = StepEdge.finish.words.take 5 :=
    (take_five_append (by decide)).symm.trans hspells.take_five
  revert hwords
  decide

/-- What has a form is not noise, whatever its numerals come to. -/
theorem WrittenMarker.read_ne_noise (written : WrittenMarker) :
    written.read.map some ≠ .ok none := by
  intro h
  cases hmarker : written.read with
  | error error =>
      rw [hmarker] at h
      cases h
  | ok marker =>
      rw [hmarker] at h
      cases h

/-- A line is noise exactly if the text by which it is judged has no form. -/
theorem classify_eq_none_iff {line : List Char} :
    classify line = .ok none
      ↔ (∀ (edge : StepEdge) (step time : List Char),
          ¬ edge.Spells step time (relevantPart line))
        ∧ ∀ (event : CycleEvent) (cycle number : List Char),
          ¬ event.Spells cycle number (relevantPart line) := by
  constructor
  · intro hnoise
    constructor
    · intro edge step time hspells
      rw [classify_of_recognise hspells.recognised] at hnoise
      exact WrittenMarker.read_ne_noise _ hnoise
    · intro event cycle number hspells
      rw [classify_of_recognise hspells.recognised] at hnoise
      exact WrittenMarker.read_ne_noise _ hnoise
  · rintro ⟨hstep, hcycle⟩
    exact classify_of_unrecognised (recognise_eq_none hstep hcycle)

/-- A line whose first begin words open no begin marker is noise. -/
theorem noise_of_first_words {line text : List Char} (hfirst : FromFirst beginWords line text)
    (hnone : ∀ step time, ¬ StepEdge.start.Spells step time text) : classify line = .ok none := by
  have hpart : relevantPart line = text := judgedBy_iff.mp (.inl hfirst)
  rw [classify_eq_none_iff, hpart]
  constructor
  · intro edge step time
    cases edge with
    | start => exact hnone step time
    | finish => exact not_spells_finish_of_opens hfirst.opens step time
  · exact fun event cycle number hspells => hspells.not_begin hfirst.opens

/-- The text by which a line is judged is a part of it, so a line that spells no
    marker is noise. -/
theorem noise_of_not_spellsMarker {line : List Char} (h : ¬ SpellsMarker line) :
    classify line = .ok none := by
  rcases judgedBy_relevantPart line with hfirst | ⟨hpart, -⟩
  · refine noise_of_first_words hfirst ?_
    intro step time hspells
    obtain ⟨before, hline, -⟩ := hfirst.first
    exact h (.start before _ step time hline hspells)
  · rw [classify_eq_none_iff, hpart]
    constructor
    · intro edge step time hspells
      cases edge with
      | start => exact h (.start [] line step time rfl hspells)
      | finish => exact h (.finish step time hspells)
    · exact fun event cycle number hspells => h (.cycle event cycle number hspells)

/-- A marker that is lost is lost to the cut. -/
theorem SpellsMarker.hidden {line : List Char} (h : SpellsMarker line)
    (hnoise : classify line = .ok none) :
    ∃ text, FromFirst beginWords line text
      ∧ ∀ step time, ¬ StepEdge.start.Spells step time text := by
  obtain ⟨hstep, hcycle⟩ := classify_eq_none_iff.mp hnoise
  rcases judgedBy_relevantPart line with hfirst | ⟨hpart, habsent⟩
  · exact ⟨relevantPart line, hfirst, hstep .start⟩
  · -- without begin words the whole line is judged, and its form is found
    rw [hpart] at hstep hcycle
    cases h with
    | start before text step time split spells =>
        exact absurd (opens_of_spells_start spells) (habsent before text split)
    | finish step time spells => exact absurd spells (hstep .finish step time)
    | cycle event index number spells => exact absurd spells (hcycle event index number)

/-- **NOISE**: a line is noise exactly if it spells no marker, or if the first
    begin words in it open no begin marker; and a line that has the form of a
    cycle line is never noise. -/
theorem noise_exactly (line : List Char) :
    (classify line = .ok none
        ↔ ¬ SpellsMarker line
          ∨ ∃ text, FromFirst beginWords line text
            ∧ ∀ step time, ¬ StepEdge.start.Spells step time text)
      ∧ ∀ event cycle number, CycleEvent.Spells event cycle number line →
        classify line ≠ .ok none := by
  refine ⟨⟨?_, ?_⟩, ?_⟩
  · intro hnoise
    by_cases hspells : SpellsMarker line
    · exact .inr (hspells.hidden hnoise)
    · exact .inl hspells
  · rintro (hnone | ⟨text, hfirst, hbegin⟩)
    · exact noise_of_not_spellsMarker hnone
    · exact noise_of_first_words hfirst hbegin
  · intro event cycle number hspells hnoise
    exact (classify_eq_none_iff.mp hnoise).2 event cycle number
      (CycleEvent.spells_relevantPart_iff.mpr hspells)

/-- An end marker whose free text mentions the begin words. -/
def endMentioningBegin : List Char :=
  "End Step 1 (see Begin Step) 100".toList

/-- **LOST**: the line is an end marker from its first character to its last, and
    it is noise. -/
theorem not_every_marker_is_kept :
    ¬ ∀ line : List Char, SpellsMarker line → classify line ≠ .ok none := by
  intro h
  refine h endMentioningBegin (.finish "1".toList "100".toList ?_) (by decide +kernel)
  refine ⟨" (see Begin Step)".toList, ' ', [], by decide, ?_, ?_, ?_, ?_, ?_, ?_⟩
  · exact ⟨by decide, List.all_eq_true.mp (by decide)⟩
  · exact ⟨by decide, List.all_eq_true.mp (by decide)⟩
  · decide
  · decide
  · intro c hc
    obtain rfl := Option.some.inj hc
    decide +kernel
  · exact fun _ hmem => nomatch hmem

end RunTimings
