import RunTimings.Marker.Recognise
import RunTimings.Proofs.Outcomes

/-! # Classification taken apart — cut, recognise, read

    A line is classified in three steps: what stands before the first begin
    words is cut off, the rest is compared with the five forms, and the numerals
    of the form are read.  This file says what each step hands on:

    * `fromFirst_spec` — the cut is at the FIRST place where the words occur, so
      the forms are compared with the text by which the line is judged
      (`judgedBy_iff`);
    * `classify_of_recognise` / `classify_of_unrecognised` — the outcome is that
      of reading the form, or noise;
    * `signed64_of_classify` — the numbers of a marker fit 64 bits. -/

namespace RunTimings

/-! ## The cut -/

/-- The part of a line that is compared with the forms. -/
def relevantPart (line : List Char) : List Char :=
  (fromFirst beginWords line).getD line

/-- A text is what remains of a line from the first occurrence of the words on:
    they open it, and they do not occur any earlier. -/
structure FromFirst (words line text : List Char) : Prop where
  opens : words <+: text
  first : ∃ before, line = before ++ text ∧
    ∀ earlier later, line = earlier ++ later → words <+: later → before.length ≤ earlier.length

/-- **THE CUT**: the search finds the first occurrence if there is one, and
    nothing only if there is none. -/
theorem fromFirst_spec {words : List Char} (hwords : words ≠ []) (line : List Char) :
    match fromFirst words line with
    | some text => FromFirst words line text
    | none => ∀ earlier later, line = earlier ++ later → ¬ words <+: later := by
  induction line with
  | nil =>
      intro earlier later heq hprefix
      have hnil : later = [] := (List.append_eq_nil_iff.mp heq.symm).2
      rw [hnil] at hprefix
      exact hwords (List.prefix_nil.mp hprefix)
  | cons c line ih =>
      rw [fromFirst]
      -- either the words occur right here, or not before the rest of the line
      by_cases hhere : words.isPrefixOf (c :: line)
      · rw [if_pos hhere]
        refine ⟨List.isPrefixOf_iff_prefix.mp hhere, [], rfl, ?_⟩
        intro earlier later _ _
        exact Nat.zero_le _
      · rw [if_neg hhere]
        have hnot : ¬ words <+: c :: line := fun h => hhere (List.isPrefixOf_iff_prefix.mpr h)
        cases hfound : fromFirst words line with
        | none =>
            rw [hfound] at ih
            intro earlier later heq hprefix
            cases earlier with
            | nil =>
                have hlater : c :: line = later := heq
                exact hnot (hlater ▸ hprefix)
            | cons e earlier =>
                exact ih earlier later (List.cons.inj heq).2 hprefix
        | some text =>
            rw [hfound] at ih
            obtain ⟨hopens, before, heq, hfirst⟩ := ih
            refine ⟨hopens, c :: before, by rw [heq]; rfl, ?_⟩
            intro earlier later hsplit hprefix
            cases earlier with
            | nil =>
                have hlater : c :: line = later := hsplit
                exact absurd (hlater ▸ hprefix) hnot
            | cons e earlier =>
                have := hfirst earlier later (List.cons.inj hsplit).2 hprefix
                simp only [List.length_cons]
                omega

/-- The text by which a line is judged: the part from the first begin words on,
    or the whole line if they do not occur in it. -/
def JudgedBy (line text : List Char) : Prop :=
  FromFirst beginWords line text
    ∨ text = line ∧ ∀ earlier later, line = earlier ++ later → ¬ beginWords <+: later

/-- What remains from the first occurrence on is determined. -/
theorem FromFirst.unique {words line text other : List Char} (h : FromFirst words line text)
    (hother : FromFirst words line other) : text = other := by
  obtain ⟨before, heq, hfirst⟩ := h.first
  obtain ⟨before', heq', hfirst'⟩ := hother.first
  -- neither of the two places is before the other
  have hle := hfirst before' other heq' hother.opens
  have hge := hfirst' before text heq h.opens
  exact (List.append_inj (heq.symm.trans heq') (by omega)).2

/-- The recognisers are handed exactly the text by which the line is judged. -/
theorem judgedBy_iff {line text : List Char} : JudgedBy line text ↔ relevantPart line = text := by
  have hspec := fromFirst_spec (by decide : beginWords ≠ []) line
  simp only [JudgedBy, relevantPart]
  cases hfound : fromFirst beginWords line with
  | none =>
      rw [hfound] at hspec
      constructor
      · rintro (⟨hopens, before, heq, -⟩ | ⟨htext, -⟩)
        · exact absurd hopens (hspec before text heq)
        · exact htext.symm
      · intro htext
        exact .inr ⟨htext.symm, hspec⟩
  | some found =>
      rw [hfound] at hspec
      constructor
      · rintro (hfirst | ⟨-, habsent⟩)
        · exact FromFirst.unique hspec hfirst
        · obtain ⟨before, heq, -⟩ := hspec.first
          exact absurd hspec.opens (habsent before found heq)
      · intro htext
        have hfound : found = text := htext
        exact .inl (hfound ▸ hspec)

theorem judgedBy_relevantPart (line : List Char) : JudgedBy line (relevantPart line) :=
  judgedBy_iff.mpr rfl

/-! ## The outcome -/

/-- A line with a form has the outcome of reading the form. -/
theorem classify_of_recognise {line : List Char} {written : WrittenMarker}
    (h : recognise (relevantPart line) = some written) :
    classify line = written.read.map some := by
  simp only [classify]
  rw [show recognise ((fromFirst beginWords line).getD line) = some written from h]

/-- A line without a form is noise. -/
theorem classify_of_unrecognised {line : List Char} (h : recognise (relevantPart line) = none) :
    classify line = .ok none := by
  simp only [classify]
  rw [show recognise ((fromFirst beginWords line).getD line) = none from h]

/-- A line reports a marker exactly if it has a form that reads as that marker. -/
theorem classify_eq_some_iff {line : List Char} {marker : Marker} :
    classify line = .ok (some marker)
      ↔ ∃ written, recognise (relevantPart line) = some written ∧ written.read = .ok marker := by
  cases hform : recognise (relevantPart line) with
  | none =>
      rw [classify_of_unrecognised hform]
      simp
  | some written =>
      rw [classify_of_recognise hform]
      cases hread : written.read with
      | error error => simp [Except.map, hread]
      | ok found => simp [Except.map, hread]

/-! ## The range of the numbers -/

/-- The timestamp or the wait of a marker. -/
def Marker.number : Marker → Int
  | .beginStep _ timestamp => timestamp
  | .endStep _ timestamp => timestamp
  | .startCycle _ timestamp => timestamp
  | .endId _ timestamp => timestamp
  | .waiting _ wait => wait

theorem signed64_of_readSigned {field : NumberField} {numeral : List Char} {n : Int}
    (h : readSigned field numeral = .ok n) : Signed64 n := by
  simp only [readSigned] at h
  by_cases hfits : Signed64 (Numeral.signedValue numeral)
  · rw [if_pos hfits] at h
    cases h
    exact hfits
  · rw [if_neg hfits] at h
    cases h

/-- The second numeral of every form is read as a number with a sign. -/
theorem signed64_of_read {written : WrittenMarker} {marker : Marker}
    (h : written.read = .ok marker) : Signed64 marker.number := by
  cases written with
  | beginStep step timestamp =>
      obtain ⟨_, n, -, hn, rfl⟩ := bind_bind_eq_ok_iff.mp h
      exact signed64_of_readSigned hn
  | endStep step timestamp =>
      obtain ⟨_, n, -, hn, rfl⟩ := bind_bind_eq_ok_iff.mp h
      exact signed64_of_readSigned hn
  | startCycle cycle timestamp =>
      obtain ⟨_, n, -, hn, rfl⟩ := bind_bind_eq_ok_iff.mp h
      exact signed64_of_readSigned hn
  | endId cycle timestamp =>
      obtain ⟨_, n, -, hn, rfl⟩ := bind_bind_eq_ok_iff.mp h
      exact signed64_of_readSigned hn
  | waiting cycle wait =>
      obtain ⟨_, n, -, hn, rfl⟩ := bind_bind_eq_ok_iff.mp h
      exact signed64_of_readSigned hn

/-- The number of a marker on a line fits 64 bits. -/
theorem signed64_of_classify {line : List Char} {marker : Marker}
    (h : classify line = .ok (some marker)) : Signed64 marker.number := by
  obtain ⟨written, -, hread⟩ := classify_eq_some_iff.mp h
  exact signed64_of_read hread

end RunTimings
