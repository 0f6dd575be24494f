import RunTimings.Marker.Recognise

/-! # Numerals in a line — where they begin and where they end

    The recognisers take runs of characters off the front or the back of a text.
    A run taken off is the LONGEST one, and it is also the only one that the
    next character can follow; so taking runs and splitting a text are the same.

    * `span_iff` — a run and what follows it, as a splitting of the text;
    * `leadingNumeral_eq_some_iff` and `leadingSigned_eq_some_iff` — the numeral
      at the front, without and with a sign;
    * `timeAtEnd_eq_some_iff` — the numeral at the back: a blank character
      stands before it, one line before that, and only blanks after it. -/

namespace RunTimings

open RunTimings.Text

/-! ## Characters -/

/-- No digit is blank. -/
theorem isBlank_of_isDigit {c : Char} (h : c.isDigit = true) : isBlank c = false := by
  obtain ⟨hlow, hhigh⟩ := Char.isDigit_iff_toNat.mp h
  have hlow : 48 ≤ c.toNat := hlow
  have hhigh : c.toNat ≤ 57 := hhigh
  simp only [isBlank, blankRanges, Ranges.covers]
  repeat rw [if_neg (by omega)]
  rw [if_pos (by omega)]

/-- No blank is a digit. -/
theorem isDigit_of_isBlank {c : Char} (h : isBlank c = true) : c.isDigit = false := by
  cases hdigit : c.isDigit with
  | false => rfl
  | true =>
      rw [isBlank_of_isDigit hdigit] at h
      cases h

/-- Every digit may be part of a word. -/
theorem isWordChar_of_isDigit {c : Char} (h : c.isDigit = true) : isWordChar c = true := by
  obtain ⟨hlow, hhigh⟩ := Char.isDigit_iff_toNat.mp h
  have hlow : 48 ≤ c.toNat := hlow
  have hhigh : c.toNat ≤ 57 := hhigh
  unfold isWordChar wordRanges
  rw [Ranges.covers, if_neg (by omega), if_pos hhigh]

/-! ## Runs -/

/-- A run and what follows it: the run passes the test, and the first character
    after it does not. -/
theorem span_iff {α : Type} {p : α → Bool} {text run rest : List α} :
    (text.takeWhile p = run ∧ text.dropWhile p = rest)
      ↔ text = run ++ rest ∧ (∀ c ∈ run, p c = true) ∧ ∀ c ∈ rest.head?, p c = false := by
  constructor
  · rintro ⟨rfl, rfl⟩
    refine ⟨List.takeWhile_append_dropWhile.symm, List.all_eq_true.mp List.all_takeWhile, ?_⟩
    intro c hc
    have hhead := List.head?_dropWhile_not p text
    rw [Option.mem_def.mp hc] at hhead
    exact hhead
  · rintro ⟨rfl, hrun, hrest⟩
    rw [List.takeWhile_append_of_pos hrun, List.dropWhile_append_of_pos hrun]
    cases rest with
    | nil => exact ⟨List.append_nil run, rfl⟩
    | cons c rest =>
        have hc : ¬ p c = true := by
          rw [hrest c rfl]
          exact Bool.false_ne_true
        rw [List.takeWhile_cons_of_neg hc, List.dropWhile_cons_of_neg hc]
        exact ⟨List.append_nil run, rfl⟩

/-- A row of digits that is not empty. -/
def IsNumeral (digits : List Char) : Prop :=
  digits ≠ [] ∧ ∀ c ∈ digits, c.isDigit = true

theorem IsNumeral.reverse {digits : List Char} (h : IsNumeral digits) :
    IsNumeral digits.reverse :=
  ⟨fun hnil => h.1 (List.reverse_eq_nil_iff.mp hnil),
    fun c hc => h.2 c (List.mem_reverse.mp hc)⟩

/-- The numeral at the front of a text ends where the digits end. -/
theorem leadingNumeral_eq_some_iff {text digits rest : List Char} :
    leadingNumeral text = some (digits, rest)
      ↔ text = digits ++ rest ∧ IsNumeral digits ∧ ∀ c ∈ rest.head?, c.isDigit = false := by
  simp only [leadingNumeral, IsNumeral]
  by_cases hempty : text.takeWhile Char.isDigit = []
  · rw [if_pos hempty]
    constructor
    · intro heq
      cases heq
    · rintro ⟨htext, ⟨hne, hdigits⟩, hrest⟩
      exact absurd ((span_iff.mpr ⟨htext, hdigits, hrest⟩).1.symm.trans hempty) hne
  · rw [if_neg hempty]
    constructor
    · intro heq
      obtain ⟨hrun, hdrop⟩ := Prod.mk.inj (Option.some.inj heq)
      obtain ⟨htext, hdigits, hrest⟩ := span_iff.mp ⟨hrun, hdrop⟩
      exact ⟨htext, ⟨hrun ▸ hempty, hdigits⟩, hrest⟩
    · rintro ⟨htext, ⟨-, hdigits⟩, hrest⟩
      obtain ⟨hrun, hdrop⟩ := span_iff.mpr ⟨htext, hdigits, hrest⟩
      rw [hrun, hdrop]

/-- A numeral, or a minus sign with a numeral. -/
def IsSigned (numeral : List Char) : Prop :=
  IsNumeral numeral ∨ ∃ digits, numeral = '-' :: digits ∧ IsNumeral digits

/-- A text that does not begin with a minus sign has no signed numeral but a plain one. -/
theorem leadingSigned_of_head {text : List Char} (h : text.head? ≠ some '-') :
    leadingSigned text = leadingNumeral text := by
  simp only [leadingSigned]
  split
  · exact absurd rfl h
  · rfl

/-- The numeral at the front of a text, its minus sign included. -/
theorem leadingSigned_eq_some_iff {text numeral rest : List Char} :
    leadingSigned text = some (numeral, rest)
      ↔ text = numeral ++ rest ∧ IsSigned numeral ∧ ∀ c ∈ rest.head?, c.isDigit = false := by
  by_cases hsign : text.head? = some '-'
  · obtain ⟨unsigned, rfl⟩ : ∃ unsigned, text = '-' :: unsigned := by
      cases text with
      | nil => cases hsign
      | cons c unsigned => exact ⟨unsigned, by rw [Option.some.inj hsign]⟩
    show (leadingNumeral unsigned).map _ = _ ↔ _
    rw [Option.map_eq_some_iff]
    constructor
    · rintro ⟨⟨digits, after⟩, hdigits, heq⟩
      obtain ⟨rfl, rfl⟩ := Prod.mk.inj heq
      obtain ⟨rfl, hnumeral, hrest⟩ := leadingNumeral_eq_some_iff.mp hdigits
      exact ⟨rfl, .inr ⟨digits, rfl, hnumeral⟩, hrest⟩
    · rintro ⟨htext, hplain | ⟨digits, rfl, hnumeral⟩, hrest⟩
      · -- a row of digits does not begin with the sign
        cases numeral with
        | nil => exact absurd rfl hplain.1
        | cons c digits =>
            obtain rfl := (List.cons.inj htext).1
            exact absurd (hplain.2 '-' (List.mem_cons_self ..)) (by decide)
      · exact ⟨(digits, rest), leadingNumeral_eq_some_iff.mpr
          ⟨(List.cons.inj htext).2, hnumeral, hrest⟩, rfl⟩
  · rw [leadingSigned_of_head hsign, leadingNumeral_eq_some_iff]
    constructor
    · rintro ⟨htext, hnumeral, hrest⟩
      exact ⟨htext, .inl hnumeral, hrest⟩
    · rintro ⟨htext, hplain | ⟨digits, rfl, -⟩, hrest⟩
      · exact ⟨htext, hplain, hrest⟩
      · exact absurd (by rw [htext]; rfl) hsign

/-! ## The end of a text -/

/-- A line ends with a numeral if nothing but blanks is left. -/
theorem lastNumeral_eq_some_iff {found : Option (List Char × List Char)} {numeral : List Char} :
    lastNumeral found = some numeral
      ↔ ∃ blanks, found = some (numeral, blanks) ∧ ∀ c ∈ blanks, isBlank c = true := by
  simp only [lastNumeral]
  constructor
  · intro h
    obtain ⟨⟨digits, rest⟩, hfound, h⟩ := Option.bind_eq_some_iff.mp h
    obtain ⟨hblank, heq⟩ := Option.ite_none_right_eq_some.mp h
    cases heq
    exact ⟨rest, hfound, List.all_eq_true.mp hblank⟩
  · rintro ⟨blanks, rfl, hblanks⟩
    exact if_pos (List.all_eq_true.mpr hblanks)

/-- Blanks do not begin with a digit. -/
theorem no_digit_of_blanks {blanks : List Char} (h : ∀ c ∈ blanks, isBlank c = true) :
    ∀ c ∈ blanks.head?, c.isDigit = false := by
  intro c hc
  exact isDigit_of_isBlank (h c (List.mem_of_mem_head? hc))

/-- What is left of a line is a numeral and blanks. -/
theorem lastNumeral_leading_iff {rest numeral : List Char} :
    lastNumeral (leadingNumeral rest) = some numeral
      ↔ ∃ blanks, rest = numeral ++ blanks ∧ IsNumeral numeral
        ∧ ∀ c ∈ blanks, isBlank c = true := by
  rw [lastNumeral_eq_some_iff]
  refine exists_congr fun blanks => ?_
  rw [leadingNumeral_eq_some_iff]
  constructor
  · rintro ⟨⟨hrest, hnumeral, -⟩, hblanks⟩
    exact ⟨hrest, hnumeral, hblanks⟩
  · rintro ⟨hrest, hnumeral, hblanks⟩
    exact ⟨⟨hrest, hnumeral, no_digit_of_blanks hblanks⟩, hblanks⟩

/-- What is left of a line is a numeral with or without a sign, and blanks. -/
theorem lastNumeral_leadingSigned_iff {rest numeral : List Char} :
    lastNumeral (leadingSigned rest) = some numeral
      ↔ ∃ blanks, rest = numeral ++ blanks ∧ IsSigned numeral
        ∧ ∀ c ∈ blanks, isBlank c = true := by
  rw [lastNumeral_eq_some_iff]
  refine exists_congr fun blanks => ?_
  rw [leadingSigned_eq_some_iff]
  constructor
  · rintro ⟨⟨hrest, hnumeral, -⟩, hblanks⟩
    exact ⟨hrest, hnumeral, hblanks⟩
  · rintro ⟨hrest, hnumeral, hblanks⟩
    exact ⟨⟨hrest, hnumeral, no_digit_of_blanks hblanks⟩, hblanks⟩

/-- The text ends in a numeral after a blank character and one line, and before
    any number of blank characters. -/
def EndsInTime (time text : List Char) : Prop :=
  ∃ between gap blanks, text = between ++ gap :: time ++ blanks ∧ IsNumeral time
    ∧ '\n' ∉ between ∧ isBlank gap = true ∧ ∀ c ∈ blanks, isBlank c = true

/-- Read from the back, a text is blanks, the numeral, a blank, and a line. -/
theorem endsInTime_iff_reverse {time text : List Char} :
    EndsInTime time text ↔ ∃ blanks digits gap before,
      text.reverse = blanks ++ (digits ++ gap :: before) ∧ digits.reverse = time
        ∧ IsNumeral digits ∧ '\n' ∉ before ∧ isBlank gap = true
        ∧ ∀ c ∈ blanks, isBlank c = true := by
  constructor
  · rintro ⟨between, gap, blanks, rfl, htime, hline, hgap, hblanks⟩
    refine ⟨blanks.reverse, time.reverse, gap, between.reverse, by simp, List.reverse_reverse _,
      htime.reverse, ?_, hgap, ?_⟩
    · exact fun hmem => hline (List.mem_reverse.mp hmem)
    · exact fun c hc => hblanks c (List.mem_reverse.mp hc)
  · rintro ⟨blanks, digits, gap, before, htext, rfl, hdigits, hline, hgap, hblanks⟩
    refine ⟨before.reverse, gap, blanks.reverse, ?_, hdigits.reverse, ?_, hgap, ?_⟩
    · rw [← List.reverse_reverse text, htext]
      simp
    · exact fun hmem => hline (List.mem_reverse.mp hmem)
    · exact fun c hc => hblanks c (List.mem_reverse.mp hc)

/-- **THE TIME AT THE END**: the search from the back finds the one numeral that
    the text ends in, whatever numbers and blanks stand before it. -/
theorem timeAtEnd_eq_some_iff {text time : List Char} :
    timeAtEnd text = some time ↔ EndsInTime time text := by
  rw [endsInTime_iff_reverse]
  unfold timeAtEnd trimEnd
  rw [List.reverse_reverse]
  dsimp only
  constructor
  · intro h
    cases hback : (text.reverse.dropWhile isBlank).dropWhile Char.isDigit with
    | nil =>
        rw [hback] at h
        cases h
    | cons gap before =>
        rw [hback] at h
        obtain ⟨⟨hne, hgap, hline⟩, htime⟩ := Option.ite_none_right_eq_some.mp h
        obtain ⟨htext, hblanks, -⟩ := span_iff.mp ⟨rfl, rfl⟩
        obtain ⟨htail, hdigits, -⟩ := span_iff.mp ⟨rfl, hback⟩
        refine ⟨_, _, gap, before, ?_, Option.some.inj htime, ⟨hne, hdigits⟩, hline, hgap, hblanks⟩
        rw [← htail]
        exact htext
  · rintro ⟨blanks, digits, gap, before, htext, rfl, hdigits, hline, hgap, hblanks⟩
    -- the blanks end at a digit, and the digits end at the blank
    have hfirst : ∀ c ∈ (digits ++ gap :: before).head?, isBlank c = false := by
      intro c hc
      cases digits with
      | nil => exact absurd rfl hdigits.1
      | cons d digits =>
          obtain rfl := Option.some.inj hc
          exact isBlank_of_isDigit (hdigits.2 d (List.mem_cons_self ..))
    have hnext : ∀ c ∈ (gap :: before).head?, c.isDigit = false := by
      intro c hc
      obtain rfl := Option.some.inj hc
      exact isDigit_of_isBlank hgap
    obtain ⟨-, hdrop⟩ := span_iff.mpr ⟨htext, hblanks, hfirst⟩
    obtain ⟨hrun, hrest⟩ := span_iff.mpr ⟨rfl, hdigits.2, hnext⟩
    rw [hdrop, hrun, hrest]
    exact if_pos ⟨hdigits.1, hgap, hline⟩

end RunTimings
