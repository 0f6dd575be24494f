import RunTimings.Proofs.HiddenMarkers
import RunTimings.Proofs.ScanContinuation
import RunTimings.Proofs.Utf8Texts

/-! # Trailing blanks — what may be added to every line

    All five forms end in any number of blanks, so blanks behind a line change
    neither what it is taken for nor what its numerals come to.

    * `append_blanks_split` — blanks behind a text do not reach into a part of it
      that ends in another character;
    * `relevantPart_append_blanks` — so the cut stays where it is, and
      `recognise_append_blanks` — so does every form;
    * `readLine_append_encode` — the same for a line of bytes, whatever is broken
      in it;
    * `trailing_blanks_ignored` — so blanks behind the lines of a log, other than
      line feeds, change nothing that a scan of it visits or returns. -/

namespace RunTimings

open RunTimings.Text

/-! ## Blanks behind a text -/

/-- **BLANKS BEHIND**: a part at the front that ends in a character that is not
    blank lies in the text, and the blanks are the end of what follows it. -/
theorem append_blanks_split {text blanks core rest : List Char}
    (hblanks : ∀ c ∈ blanks, isBlank c = true) (hcore : ∃ c ∈ core.getLast?, isBlank c = false)
    (h : text ++ blanks = core ++ rest) :
    ∃ inner, text = core ++ inner ∧ rest = inner ++ blanks := by
  rcases List.append_eq_append_iff.mp h with ⟨reach, hcover, hreach⟩ | ⟨inner, htext, hrest⟩
  · -- if the part reached into the blanks, its last character would be one
    obtain ⟨c, hlast, hc⟩ := hcore
    cases reach with
    | nil => exact ⟨[], by simpa using hcover.symm, by simpa using hreach.symm⟩
    | cons d reach =>
        rw [hcover, List.getLast?_append_of_ne_nil _ (by simp)] at hlast
        have hmem : c ∈ blanks := hreach ▸ List.mem_append_left rest (List.mem_of_getLast? hlast)
        rw [hblanks c hmem] at hc
        cases hc
  · exact ⟨inner, htext, hrest⟩

/-- The last character of a text and a numeral behind it is not blank. -/
theorem last_of_numeral (front : List Char) {digits : List Char} (h : IsNumeral digits) :
    ∃ c ∈ (front ++ digits).getLast?, isBlank c = false := by
  rw [List.getLast?_append_of_ne_nil _ h.1]
  exact ⟨digits.getLast h.1, List.getLast?_eq_some_getLast h.1,
    isBlank_of_isDigit (h.2 _ (List.getLast_mem h.1))⟩

theorem last_of_signed (front : List Char) {numeral : List Char} (h : IsSigned numeral) :
    ∃ c ∈ (front ++ numeral).getLast?, isBlank c = false := by
  rcases h with hplain | ⟨digits, rfl, hdigits⟩
  · exact last_of_numeral front hplain
  · rw [List.append_cons]
    exact last_of_numeral (front ++ ['-']) hdigits

/-! ## The forms -/

theorem StepEdge.spells_append_blanks {edge : StepEdge} {step time text blanks : List Char}
    (hblanks : ∀ c ∈ blanks, isBlank c = true) :
    edge.Spells step time (text ++ blanks) ↔ edge.Spells step time text := by
  constructor
  · rintro ⟨between, gap, after, htext, hstep, htime, hline, hgap, hends, hafter⟩
    have hcore : ∃ c ∈ (edge.words ++ ' ' :: step ++ between ++ gap :: time).getLast?,
        isBlank c = false := by
      rw [List.append_cons]
      exact last_of_numeral _ htime
    obtain ⟨inner, rfl, rfl⟩ := append_blanks_split hblanks hcore htext
    exact ⟨between, gap, inner, rfl, hstep, htime, hline, hgap, hends,
      fun c hc => hafter c (List.mem_append_left blanks hc)⟩
  · rintro ⟨between, gap, after, rfl, hstep, htime, hline, hgap, hends, hafter⟩
    exact ⟨between, gap, after ++ blanks, by simp, hstep, htime, hline, hgap, hends,
      List.forall_mem_append.mpr ⟨hafter, hblanks⟩⟩

theorem CycleEvent.last_of_number {event : CycleEvent} (front : List Char) {number : List Char}
    (h : event.IsNumber number) : ∃ c ∈ (front ++ number).getLast?, isBlank c = false := by
  cases event with
  | start => exact last_of_numeral front h
  | finish => exact last_of_numeral front h
  | wait => exact last_of_signed front h

theorem CycleEvent.spells_append_blanks {event : CycleEvent} {cycle number text blanks : List Char}
    (hblanks : ∀ c ∈ blanks, isBlank c = true) :
    event.Spells cycle number (text ++ blanks) ↔ event.Spells cycle number text := by
  constructor
  · rintro ⟨label, after, htext, hlabel, hcycle, hnumber, hafter⟩
    have hsplit : text ++ blanks
        = (event.words ++ label ++ cycle ++ event.separator ++ number) ++ after := by
      rw [htext]
      simp only [List.append_assoc]
    obtain ⟨inner, rfl, rfl⟩ :=
      append_blanks_split hblanks (CycleEvent.last_of_number _ hnumber) hsplit
    exact ⟨label, inner, by simp only [List.append_assoc], hlabel, hcycle, hnumber,
      fun c hc => hafter c (List.mem_append_left blanks hc)⟩
  · rintro ⟨label, after, rfl, hlabel, hcycle, hnumber, hafter⟩
    exact ⟨label, after ++ blanks, by simp only [List.append_assoc], hlabel, hcycle, hnumber,
      List.forall_mem_append.mpr ⟨hafter, hblanks⟩⟩

/-- Blanks behind a text do not change the marker that it spells. -/
theorem recognise_append_blanks {blanks : List Char} (hblanks : ∀ c ∈ blanks, isBlank c = true)
    (text : List Char) : recognise (text ++ blanks) = recognise text := by
  by_cases hstep : ∃ (edge : StepEdge) (step time : List Char), edge.Spells step time text
  · obtain ⟨edge, step, time, hspells⟩ := hstep
    rw [hspells.recognised, ((StepEdge.spells_append_blanks hblanks).mpr hspells).recognised]
  by_cases hcycle : ∃ (event : CycleEvent) (cycle number : List Char),
      event.Spells cycle number text
  · obtain ⟨event, cycle, number, hspells⟩ := hcycle
    rw [hspells.recognised, ((CycleEvent.spells_append_blanks hblanks).mpr hspells).recognised]
  rw [recognise_eq_none, recognise_eq_none]
  · exact fun edge step time hspells => hstep ⟨edge, step, time, hspells⟩
  · exact fun event cycle number hspells => hcycle ⟨event, cycle, number, hspells⟩
  · exact fun edge step time hspells =>
      hstep ⟨edge, step, time, (StepEdge.spells_append_blanks hblanks).mp hspells⟩
  · exact fun event cycle number hspells =>
      hcycle ⟨event, cycle, number, (CycleEvent.spells_append_blanks hblanks).mp hspells⟩

/-! ## The cut -/

/-- Where the begin words occur in a text with blanks behind it, they occur in the
    text. -/
theorem opens_of_append_blanks {text blanks earlier later : List Char}
    (hblanks : ∀ c ∈ blanks, isBlank c = true) (h : text ++ blanks = earlier ++ later)
    (hopens : beginWords <+: later) :
    ∃ inner, text = earlier ++ inner ∧ later = inner ++ blanks ∧ beginWords <+: inner := by
  obtain ⟨rest, rfl⟩ := hopens
  have hcore : ∃ c ∈ (earlier ++ beginWords).getLast?, isBlank c = false := by
    rw [List.getLast?_append_of_ne_nil _ (by decide)]
    exact ⟨'p', by decide, by decide⟩
  rw [← List.append_assoc] at h
  obtain ⟨inner, rfl, rfl⟩ := append_blanks_split hblanks hcore h
  exact ⟨beginWords ++ inner, List.append_assoc _ _ _, (List.append_assoc _ _ _).symm,
    List.prefix_append _ _⟩

/-- The cut stays where it is. -/
theorem relevantPart_append_blanks {blanks : List Char} (hblanks : ∀ c ∈ blanks, isBlank c = true)
    (line : List Char) : relevantPart (line ++ blanks) = relevantPart line ++ blanks := by
  rw [← judgedBy_iff]
  rcases judgedBy_relevantPart line with ⟨hopens, before, hline, hfirst⟩ | ⟨hpart, habsent⟩
  · refine .inl ⟨hopens.trans (List.prefix_append _ _), before, ?_, ?_⟩
    · rw [← List.append_assoc, ← hline]
    · intro earlier later hsplit hlater
      obtain ⟨inner, htext, -, hinner⟩ := opens_of_append_blanks hblanks hsplit hlater
      exact hfirst earlier inner htext hinner
  · refine .inr ⟨by rw [hpart], ?_⟩
    intro earlier later hsplit hlater
    obtain ⟨inner, htext, -, hinner⟩ := opens_of_append_blanks hblanks hsplit hlater
    exact habsent earlier inner htext hinner

theorem classify_append_blanks {blanks : List Char} (hblanks : ∀ c ∈ blanks, isBlank c = true)
    (line : List Char) : classify (line ++ blanks) = classify line := by
  cases hform : recognise (relevantPart line) with
  | none =>
      rw [classify_of_unrecognised hform, classify_of_unrecognised]
      rw [relevantPart_append_blanks hblanks, recognise_append_blanks hblanks, hform]
  | some written =>
      rw [classify_of_recognise hform, classify_of_recognise]
      rw [relevantPart_append_blanks hblanks, recognise_append_blanks hblanks, hform]

/-! ## Lines of bytes -/

/-- Before a line is classified its blanks are trimmed, which makes no difference. -/
theorem readLine_eq (bytes : List UInt8) : readLine bytes = classify (Utf8.decode bytes) := by
  obtain ⟨blanks, htext, hblanks, -⟩ := exists_trimEnd_append (Utf8.decode bytes)
  conv_rhs => rw [htext]
  rw [classify_append_blanks hblanks]
  rfl

theorem readLine_append_encode {blanks : List Char} (hblanks : ∀ c ∈ blanks, isBlank c = true)
    (bytes : List UInt8) : readLine (bytes ++ Utf8.encode blanks) = readLine bytes := by
  rw [readLine_eq, Utf8.decode_append_encode, classify_append_blanks hblanks, ← readLine_eq]

theorem findOn_append_encode {blanks : List Char} (hblanks : ∀ c ∈ blanks, isBlank c = true)
    (bytes : List UInt8) (line : Nat) :
    findOn (.ok (bytes ++ Utf8.encode blanks), line) = findOn (.ok bytes, line) := by
  rw [findOn_ok, findOn_ok, readLine_append_encode hblanks]

/-! ## Logs -/

/-- The bytes with blanks behind every line, those of its place. -/
def padded (blanks : Nat → List Char) (bytes : List UInt8) : List UInt8 :=
  joinPieces newline
    ((pieces newline bytes).mapIdx fun place content => content ++ Utf8.encode (blanks place))

theorem padded_of_not_mem (blanks : Nat → List Char) {content : List UInt8}
    (h : newline ∉ content) : padded blanks content = content ++ Utf8.encode (blanks 0) := by
  rw [padded, pieces_of_not_mem h]
  rfl

theorem padded_line (blanks : Nat → List Char) {content : List UInt8} (h : newline ∉ content)
    (rest : List UInt8) :
    padded blanks (content ++ newline :: rest)
      = content ++ Utf8.encode (blanks 0)
        ++ newline :: padded (fun place => blanks (place + 1)) rest := by
  have hne := pieces_ne_nil newline rest
  simp only [padded]
  rw [pieces_append_separator h, List.mapIdx_cons]
  cases hcut : pieces newline rest with
  | nil => exact absurd hcut hne
  | cons piece more =>
      rw [List.mapIdx_cons]
      rfl

/-- The bytes of blanks hold no newline unless the blanks do. -/
theorem newline_not_mem_encode {blanks : List Char} (h : '\n' ∉ blanks) :
    newline ∉ Utf8.encode blanks := by
  intro hmem
  obtain ⟨c, hc, hbyte⟩ := List.mem_flatMap.mp hmem
  have hnumber : c.toNat = newline.toNat :=
    (Utf8.spelled_utf8EncodeChar c).eq_of_mem hbyte (by decide)
  have hfeed : c = '\n' := Char.toNat_inj.mp hnumber
  exact h (hfeed ▸ hc)

theorem newline_not_mem_append_encode {blanks : List Char} (hfeed : '\n' ∉ blanks)
    {content : List UInt8} (h : newline ∉ content) : newline ∉ content ++ Utf8.encode blanks := by
  intro hmem
  rcases List.mem_append.mp hmem with hmem | hmem
  · exact h hmem
  · exact newline_not_mem_encode hfeed hmem

/-- **PADDED LINES**: blanks behind the lines change nothing that is found. -/
theorem findings_padded {blanks : Nat → List Char}
    (hblanks : ∀ place, ∀ c ∈ blanks place, isBlank c = true)
    (hfeed : ∀ place, '\n' ∉ blanks place) (bytes : List UInt8) (fault : Option FileError) :
    LogContent.findings ⟨padded blanks bytes, fault⟩ = LogContent.findings ⟨bytes, fault⟩ := by
  induction bytes using lines_induction generalizing blanks with
  | last content hcontent =>
      have hwhole := newline_not_mem_append_encode (hfeed 0) hcontent
      rw [padded_of_not_mem blanks hcontent, findings_of_not_mem hwhole,
        findings_of_not_mem hcontent]
      cases fault with
      | none => rw [findOn_append_encode (hblanks 0)]
      | some error => rfl
  | line content rest hcontent ih =>
      have hwhole := newline_not_mem_append_encode (hfeed 0) hcontent
      rw [padded_line blanks hcontent, findings_line hwhole, findings_line hcontent,
        findOn_append_encode (hblanks 0),
        ih (fun place => hblanks (place + 1)) (fun place => hfeed (place + 1))]

/-- The log with blanks behind every line, those of its place. -/
def LogContent.padded (blanks : Nat → List Char) (log : LogContent) : LogContent :=
  { log with bytes := RunTimings.padded blanks log.bytes }

/-- **TRAILING BLANKS** change neither what a line reports, blanks of all kinds
    behind a text, nor, behind the lines of a log, anything that is visited in a
    scan of it or that the scan comes to. -/
theorem trailing_blanks_ignored :
    (∀ line blanks : List Char, (∀ c ∈ blanks, isBlank c = true) →
        classify (line ++ blanks) = classify line)
      ∧ ∀ {σ ε : Type} (refuse : Nat → LineFault → ε) (visit : Nat → Marker → σ → Progress σ ε)
          (start : σ) (blanks : Nat → List Char) (log : LogContent),
        (∀ place, ∀ c ∈ blanks place, isBlank c = true) → (∀ place, '\n' ∉ blanks place) →
          scan refuse visit (log.padded blanks).findings start
              = scan refuse visit log.findings start
            ∧ visits refuse visit (log.padded blanks).findings start
              = visits refuse visit log.findings start := by
  refine ⟨fun line blanks hblanks => classify_append_blanks hblanks line, ?_⟩
  intro σ ε refuse visit start blanks log hblanks hfeed
  have hfindings : (log.padded blanks).findings = log.findings :=
    findings_padded hblanks hfeed log.bytes log.fault
  rw [hfindings]
  exact ⟨rfl, rfl⟩

/-- A log whose last line breaks off inside a character. -/
def brokenOffLog : LogContent :=
  ⟨Utf8.encode "Begin Step 1 100\nEnd Step 1 101".toList ++ [0xe2, 0x80], none⟩

/-- Carriage returns before its newlines, and behind the broken character, add no
    marker and take none away. -/
theorem visits_of_padded_brokenOffLog :
    visits (fun line _ => line) (fun line _ _ => ⟨line, none⟩)
        (brokenOffLog.padded fun _ => ['\r']).findings 0
      = [(1, .beginStep ⟨0, by decide⟩ 100)] := by
  have hblanks : ∀ c ∈ ['\r'], isBlank c = true := List.all_eq_true.mp (by decide)
  have hfeed : '\n' ∉ ['\r'] := by decide
  rw [(trailing_blanks_ignored.2 _ _ 0 _ brokenOffLog (fun _ => hblanks) fun _ => hfeed).2]
  decide +kernel

end RunTimings
