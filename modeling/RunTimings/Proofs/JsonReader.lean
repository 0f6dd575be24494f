import RunTimings.Proofs.JsonGrammar

/-! # Reading JSON — a text says at most one value

    A reader goes over a text character by character.  What it keeps is where it is
    inside a lexeme (`Lexing`) and, of the arrays and objects that are still open,
    what it has read so far (`Stage`).  It reads every text of the grammar as the
    value that the text says, and so no text says two.

    * `readNumber?_text` — a number is taken apart as it was put together.
    * `Reader.Done` — the reader is at the end of a value; it need not know yet, as
      a number ends only where something else begins.
    * `Spells.reads` — over a text that says a value, the reader comes to its end.
    * **`read_of_spells`**, `Spells.unique` — every such text is read, and as one
      value. -/

namespace RunTimings.Json

/-! ## Numbers -/

instance (digits : List Char) : Decidable (IsNumeral digits) :=
  decidable_of_iff (digits ≠ [] ∧ digits.all Char.isDigit = true)
    (and_congr_right fun _ => List.all_eq_true)

instance (e : ExponentText) : Decidable e.WellFormed :=
  inferInstanceAs (Decidable (_ ∧ _ ∧ IsNumeral e.digits))

instance (n : NumberText) : Decidable n.WellFormed :=
  decidable_of_iff (IsNumeral n.whole ∧ (n.whole.head? = some '0' → n.whole = ['0'])
      ∧ n.fraction.all Char.isDigit = true
      ∧ n.exponent.all (fun e => decide e.WellFormed) = true)
    (and_congr_right fun _ => and_congr_right fun _ => and_congr List.all_eq_true (by
      rw [Option.all_eq_true]
      exact forall₂_congr fun _ _ => decide_eq_true_iff))

/-- The minus sign of a number and what follows. -/
def splitSign : List Char → Bool × List Char
  | '-' :: rest => (true, rest)
  | rest => (false, rest)

/-- The fraction of a number and what follows. -/
def splitFraction : List Char → List Char × List Char
  | '.' :: rest => (rest.takeWhile Char.isDigit, rest.dropWhile Char.isDigit)
  | rest => ([], rest)

/-- The exponent of a number, which is all the rest. -/
def splitExponent : List Char → Option ExponentText
  | [] => none
  | mark :: '+' :: digits => some ⟨mark, ['+'], digits⟩
  | mark :: '-' :: digits => some ⟨mark, ['-'], digits⟩
  | mark :: digits => some ⟨mark, [], digits⟩

/-- Takes a number apart; what has not the form of a number is none. -/
def readNumber? (text : List Char) : Option NumberText :=
  let (negative, unsigned) := splitSign text
  let (fraction, rest) := splitFraction (unsigned.dropWhile Char.isDigit)
  let n : NumberText := ⟨negative, unsigned.takeWhile Char.isDigit, fraction, splitExponent rest⟩
  if n.WellFormed ∧ n.text = text then some n else none

theorem splitSign_text {negative : Bool} {digits rest : List Char} (hdigits : IsNumeral digits) :
    splitSign (signText negative ++ (digits ++ rest)) = (negative, digits ++ rest) := by
  cases negative with
  | true => rfl
  | false =>
      obtain ⟨c, digits, rfl⟩ := List.exists_cons_of_ne_nil hdigits.1
      have hminus : c ≠ '-' := by
        rintro rfl
        exact absurd (hdigits.2 '-' (List.mem_cons_self ..)) (by decide)
      simp only [signText, splitSign]
      split
      · rename_i heq
        exact absurd (List.cons.inj heq).1 hminus
      · rfl

theorem splitExponent_text {exponent : Option ExponentText} (h : ∀ e ∈ exponent, e.WellFormed) :
    splitExponent (exponentText exponent) = exponent := by
  cases exponent with
  | none => rfl
  | some e =>
      obtain ⟨-, hsign, hne, hdigits⟩ := h e rfl
      obtain ⟨mark, sign, digits⟩ := e
      rcases hsign with rfl | rfl | rfl
      · -- a digit is no sign
        obtain ⟨c, digits, rfl⟩ := List.exists_cons_of_ne_nil hne
        have hdigit : c.isDigit = true := hdigits c (List.mem_cons_self ..)
        show splitExponent (mark :: c :: digits) = _
        unfold splitExponent
        split
        · rename_i heq
          cases heq
        · rename_i heq
          obtain rfl := (List.cons.inj (List.cons.inj heq).2).1
          exact absurd hdigit (by decide)
        · rename_i heq
          obtain rfl := (List.cons.inj (List.cons.inj heq).2).1
          exact absurd hdigit (by decide)
        · rename_i heq
          obtain ⟨rfl, rfl⟩ := List.cons.inj heq
          rfl
      · rfl
      · rfl

/-- An exponent begins with its letter. -/
theorem head_exponentText {exponent : Option ExponentText} (h : ∀ e ∈ exponent, e.WellFormed)
    {c : Char} (hc : c ∈ (exponentText exponent).head?) : c = 'e' ∨ c = 'E' := by
  cases exponent with
  | none => cases hc
  | some e =>
      obtain rfl := Option.some.inj hc
      exact (h e rfl).1

theorem splitFraction_text {fraction : List Char} (hfraction : ∀ c ∈ fraction, c.isDigit = true)
    {exponent : Option ExponentText} (h : ∀ e ∈ exponent, e.WellFormed) :
    splitFraction (pointText fraction ++ exponentText exponent)
      = (fraction, exponentText exponent) := by
  rw [pointText]
  split_ifs with hnone
  · rw [hnone, List.nil_append]
    unfold splitFraction
    split
    · rename_i rest heq
      have hhead : '.' ∈ (exponentText exponent).head? := by rw [heq]; rfl
      exact absurd (head_exponentText h hhead) (by decide)
    · rfl
  · have hspan := span_iff.mpr ⟨rfl, hfraction, fun c hc => by
      rcases head_exponentText h hc with rfl | rfl <;> rfl⟩
    rw [List.cons_append, splitFraction, hspan.1, hspan.2]

/-- **TAKEN APART**: a number is read as its parts. -/
theorem readNumber?_text {n : NumberText} (h : n.WellFormed) : readNumber? n.text = some n := by
  obtain ⟨hwhole, -, hfraction, hexponent⟩ := id h
  have hends : ∀ c ∈ (pointText n.fraction ++ exponentText n.exponent).head?,
      c.isDigit = false := by
    intro c hc
    rw [pointText] at hc
    split_ifs at hc with hnone
    · rcases head_exponentText hexponent hc with rfl | rfl <;> rfl
    · obtain rfl := Option.some.inj hc
      rfl
  have hspan := span_iff.mpr ⟨rfl, hwhole.2, hends⟩
  rw [readNumber?, NumberText.text, splitSign_text hwhole]
  simp only [hspan.1, hspan.2, splitFraction_text hfraction hexponent,
    splitExponent_text hexponent]
  exact if_pos ⟨h, rfl⟩

/-! ## The reader -/

/-- A part of a text that counts as one. -/
inductive Token
  | beginArray
  | endArray
  | beginObject
  | endObject
  | colon
  | comma
  | text (text : String)
  | scalar (value : Json)

/-- An array or an object that is open, with what has been read of it, the last first.
    In an object the value of a name is due. -/
inductive Frame
  | array (items : List Json)
  | object (fields : List (String × Json)) (name : String)

/-- What is due next, or the value that has been read. -/
inductive Stage
  | valueDue (frames : List Frame)
  | nameDue (fields : List (String × Json)) (frames : List Frame)
  | colonDue (fields : List (String × Json)) (name : String) (frames : List Frame)
  | after (value : Json) (frames : List Frame)

/-- What is read by one more token; a token that is not due is refused.  An array or
    an object may end at once, but not behind a comma. -/
def Stage.next : Stage → Token → Option Stage
  | .valueDue frames, .scalar value => some (.after value frames)
  | .valueDue frames, .text text => some (.after (.str text) frames)
  | .valueDue frames, .beginArray => some (.valueDue (.array [] :: frames))
  | .valueDue frames, .beginObject => some (.nameDue [] frames)
  | .valueDue (.array [] :: frames), .endArray => some (.after (.arr []) frames)
  | .nameDue fields frames, .text name => some (.colonDue fields name frames)
  | .nameDue [] frames, .endObject => some (.after (.obj []) frames)
  | .colonDue fields name frames, .colon => some (.valueDue (.object fields name :: frames))
  | .after value (.array items :: frames), .comma =>
    some (.valueDue (.array (value :: items) :: frames))
  | .after value (.array items :: frames), .endArray =>
    some (.after (.arr (value :: items).reverse) frames)
  | .after value (.object fields name :: frames), .comma =>
    some (.nameDue ((name, value) :: fields) frames)
  | .after value (.object fields name :: frames), .endObject =>
    some (.after (.obj ((name, value) :: fields).reverse) frames)
  | _, _ => none

/-- Where a reader is: between lexemes, in one without quotes, in a string, behind a
    backslash in a string, or in the number of a character.  What has been read of
    the lexeme is kept, the last first. -/
inductive Lexing
  | between
  | bare (chars : List Char)
  | string (chars : List Char)
  | escape (chars : List Char)
  | number (chars digits : List Char)

/-- A reader of JSON. -/
structure Reader where
  lexing : Lexing
  stage : Stage

/-- A reader of which a value is due. -/
def Reader.start (frames : List Frame) : Reader :=
  ⟨.between, .valueDue frames⟩

/-- The tokens of a single character. -/
def punctuation? (c : Char) : Option Token :=
  if c = '[' then some .beginArray
  else if c = ']' then some .endArray
  else if c = '\x7b' then some .beginObject
  else if c = '\x7d' then some .endObject
  else if c = ':' then some .colon
  else if c = ',' then some .comma
  else none

/-- The characters of numbers and words. -/
def isBare (c : Char) : Bool :=
  c.isAlphanum || c = '+' || c = '-' || c = '.'

/-- The value of a number or a word. -/
def scalar? (chars : List Char) : Option Json :=
  if chars = "null".toList then some .null else (readNumber? chars).map NumberText.value

/-- A character between lexemes. -/
def Stage.begin (stage : Stage) (c : Char) : Option Reader :=
  if isSpace c then some ⟨.between, stage⟩
  else if c = '\x22' then some ⟨.string [], stage⟩
  else if isBare c then some ⟨.bare [c], stage⟩
  else (punctuation? c).bind fun token => (stage.next token).map (⟨.between, ·⟩)

/-- A character anywhere. -/
def Reader.step : Reader → Char → Option Reader
  | ⟨.between, stage⟩, c => stage.begin c
  | ⟨.bare chars, stage⟩, c =>
    if isBare c then some ⟨.bare (c :: chars), stage⟩
    else do
      let value ← scalar? chars.reverse
      let stage ← stage.next (.scalar value)
      stage.begin c
  | ⟨.string chars, stage⟩, c =>
    if c = '\x22' then (stage.next (.text (String.ofList chars.reverse))).map (⟨.between, ·⟩)
    else if c = '\\' then some ⟨.escape chars, stage⟩
    else if c.toNat < 0x20 then none
    else some ⟨.string (c :: chars), stage⟩
  | ⟨.escape chars, stage⟩, c =>
    if c = 'u' then some ⟨.number chars [], stage⟩
    else (unescaped? c).map fun d => ⟨.string (d :: chars), stage⟩
  | ⟨.number chars digits, stage⟩, c =>
    if digits.length < 3 then some ⟨.number chars (c :: digits), stage⟩
    else do
      let code ← hexValue? (c :: digits).reverse
      if code.isValidChar then some ⟨.string (Char.ofNat code :: chars), stage⟩ else none

/-- The characters of a text, one after the other. -/
def Reader.over (reader : Reader) (text : List Char) : Option Reader :=
  text.foldlM Reader.step reader

/-- What has been read at the end of a text. -/
def Reader.finish : Reader → Option Json
  | ⟨.between, .after value []⟩ => some value
  | ⟨.bare chars, .valueDue []⟩ => scalar? chars.reverse
  | _ => none

/-- **READING**: the value that a text says, if it says one. -/
def read (text : List Char) : Option Json :=
  ((Reader.start []).over text).bind Reader.finish

theorem Reader.over_append (reader : Reader) (text more : List Char) :
    reader.over (text ++ more) = (reader.over text).bind (·.over more) :=
  List.foldlM_append

theorem Reader.over_cons (reader : Reader) (c : Char) (text : List Char) :
    reader.over (c :: text) = (reader.step c).bind (·.over text) :=
  List.foldlM_cons

/-! ## Lexemes -/

theorem not_isBare_of_isSpace {c : Char} (h : isSpace c = true) : isBare c = false := by
  simp only [isSpace, Bool.or_eq_true, decide_eq_true_eq] at h
  rcases h with ((rfl | rfl) | rfl) | rfl <;> decide

theorem isBare_of_isDigit {c : Char} (h : c.isDigit = true) : isBare c = true := by
  simp only [isBare, Char.isAlphanum, h, Bool.or_true, Bool.true_or]

/-- The first character of a number or a word. -/
theorem begin_bare {c : Char} (h : isBare c = true) (stage : Stage) :
    stage.begin c = some ⟨.bare [c], stage⟩ := by
  have hspace : ¬ isSpace c = true := by
    intro hspace
    rw [not_isBare_of_isSpace hspace] at h
    cases h
  have hquote : c ≠ '\x22' := by
    rintro rfl
    exact absurd h (by decide)
  rw [Stage.begin, if_neg hspace, if_neg hquote, if_pos h]

theorem over_bare {chars : List Char} (h : ∀ c ∈ chars, isBare c = true) (before : List Char)
    (stage : Stage) :
    (⟨.bare before, stage⟩ : Reader).over chars = some ⟨.bare (chars.reverse ++ before), stage⟩ := by
  induction chars generalizing before with
  | nil => rfl
  | cons c chars ih =>
      have hstep : (⟨.bare before, stage⟩ : Reader).step c = some ⟨.bare (c :: before), stage⟩ :=
        if_pos (h c (List.mem_cons_self ..))
      rw [Reader.over_cons, hstep, Option.bind_some,
        ih (fun d hd => h d (List.mem_cons_of_mem _ hd)), List.reverse_cons, List.append_assoc]
      rfl

/-- Blanks between lexemes are passed over. -/
theorem over_spaces {spaces : List Char} (h : ∀ c ∈ spaces, isSpace c = true) (stage : Stage) :
    (⟨.between, stage⟩ : Reader).over spaces = some ⟨.between, stage⟩ := by
  induction spaces with
  | nil => rfl
  | cons c spaces ih =>
      have hstep : (⟨.between, stage⟩ : Reader).step c = some ⟨.between, stage⟩ :=
        if_pos (h c (List.mem_cons_self ..))
      rw [Reader.over_cons, hstep, Option.bind_some,
        ih fun d hd => h d (List.mem_cons_of_mem _ hd)]

/-- A character of a string is read in each of its forms. -/
theorem over_charText {c : Char} {piece : List Char} (h : CharText c piece) (chars : List Char)
    (stage : Stage) :
    (⟨.string chars, stage⟩ : Reader).over piece = some ⟨.string (c :: chars), stage⟩ := by
  cases h with
  | plain hquote hbackslash hcontrol =>
      rw [Reader.over_cons, Reader.step, if_neg hquote, if_neg hbackslash,
        if_neg (Nat.not_lt.mpr hcontrol)]
      rfl
  | @letter letter c hletter =>
      have hu : letter ≠ 'u' := by
        rintro rfl
        cases hletter
      have hstep : (⟨.escape chars, stage⟩ : Reader).step letter
          = some ⟨.string (c :: chars), stage⟩ := by
        rw [Reader.step, if_neg hu, hletter]
        rfl
      show (Reader.over ⟨.escape chars, stage⟩ [letter]) = _
      rw [Reader.over_cons, hstep]
      rfl
  | @number digits code hfour hcode hvalid =>
      obtain ⟨a, b, c, d, rfl⟩ := List.length_eq_four.mp hfour
      have hstep : (⟨.number chars [c, b, a], stage⟩ : Reader).step d
          = some ⟨.string (Char.ofNat code :: chars), stage⟩ := by
        show (hexValue? [a, b, c, d]).bind (fun code => if code.isValidChar then _ else none) = _
        rw [hcode, Option.bind_some, if_pos hvalid]
      show (Reader.over ⟨.number chars [c, b, a], stage⟩ [d]) = _
      rw [Reader.over_cons, hstep]
      rfl

theorem over_stringText {text pieces : List Char} (h : StringText text pieces)
    (chars : List Char) (stage : Stage) :
    (⟨.string chars, stage⟩ : Reader).over pieces
      = some ⟨.string (text.reverse ++ chars), stage⟩ := by
  induction h generalizing chars with
  | nil => rfl
  | @cons c text piece pieces hpiece _ ih =>
      rw [Reader.over_append, over_charText hpiece, Option.bind_some, ih, List.reverse_cons,
        List.append_assoc]
      rfl

/-- **A STRING** is read as its characters. -/
theorem over_quoted {text : String} {pieces : List Char} (h : StringText text.toList pieces)
    (stage : Stage) :
    (⟨.between, stage⟩ : Reader).over ('\x22' :: (pieces ++ ['\x22']))
      = (stage.next (.text text)).map (⟨.between, ·⟩) := by
  show (⟨.string [], stage⟩ : Reader).over (pieces ++ ['\x22']) = _
  rw [Reader.over_append, over_stringText h, Option.bind_some, Reader.over_cons, Reader.step,
    if_pos rfl, List.append_nil, List.reverse_reverse, String.ofList_toList]
  cases stage.next (.text text) <;> rfl

/-! ## Values -/

/-- The reader is at the end of a value.  A number or a word that it is still in ends
    where something else begins. -/
inductive Reader.Done (value : Json) (frames : List Frame) : Reader → Prop
  | read : Done value frames ⟨.between, .after value frames⟩
  | due {chars : List Char} (h : scalar? chars.reverse = some value) :
      Done value frames ⟨.bare chars, .valueDue frames⟩

/-- A text is read as a value, in whatever arrays and objects it stands. -/
def Reads (value : Json) (text : List Char) : Prop :=
  ∀ frames, ∃ reader, (Reader.start frames).over text = some reader ∧ reader.Done value frames

/-- What comes behind a value ends it. -/
theorem Reader.Done.step {value : Json} {frames : List Frame} {reader : Reader}
    (h : reader.Done value frames) {c : Char} (hc : isBare c = false) :
    reader.step c = (Stage.after value frames).begin c := by
  cases h with
  | read => rfl
  | due hscalar =>
      rw [Reader.step, if_neg (by rw [hc]; exact Bool.false_ne_true), hscalar]
      rfl

theorem Reader.Done.space {value : Json} {frames : List Frame} {reader : Reader}
    (h : reader.Done value frames) {c : Char} (hc : isSpace c = true) :
    reader.step c = some ⟨.between, .after value frames⟩ :=
  (h.step (not_isBare_of_isSpace hc)).trans (if_pos hc)

theorem Reader.Done.spaces {value : Json} {frames : List Frame} {reader : Reader}
    (h : reader.Done value frames) {spaces : List Char} (hspaces : ∀ c ∈ spaces, isSpace c = true) :
    ∃ reader', reader.over spaces = some reader' ∧ reader'.Done value frames := by
  cases spaces with
  | nil => exact ⟨reader, rfl, h⟩
  | cons c spaces =>
      refine ⟨⟨.between, .after value frames⟩, ?_, .read⟩
      rw [Reader.over_cons, h.space (hspaces c (List.mem_cons_self ..)), Option.bind_some]
      exact over_spaces (fun d hd => hspaces d (List.mem_cons_of_mem _ hd)) _

/-- Blanks and a bracket end an array or an object. -/
theorem Reader.Done.closed {value : Json} {frames : List Frame} {reader : Reader}
    (h : reader.Done value frames) {closing : List Char}
    (hclosing : ∀ c ∈ closing, isSpace c = true) {c : Char} (hc : isBare c = false)
    {outer : Json} {frames' : List Frame}
    (hbegin : (Stage.after value frames).begin c = some ⟨.between, .after outer frames'⟩) :
    reader.over (closing ++ [c]) = some ⟨.between, .after outer frames'⟩ := by
  obtain ⟨reader', hover, hdone⟩ := h.spaces hclosing
  rw [Reader.over_append, hover, Option.bind_some, Reader.over_cons, hdone.step hc, hbegin]
  rfl

/-- A number or a word is read as its value. -/
theorem reads_scalar {value : Json} {text : List Char} (hne : text ≠ [])
    (hbare : ∀ c ∈ text, isBare c = true) (hscalar : scalar? text = some value) :
    Reads value text := by
  intro frames
  obtain ⟨c, text, rfl⟩ := List.exists_cons_of_ne_nil hne
  refine ⟨⟨.bare (text.reverse ++ [c]), .valueDue frames⟩, ?_, .due ?_⟩
  · rw [Reader.over_cons]
    show ((Stage.valueDue frames).begin c).bind _ = _
    rw [begin_bare (hbare c (List.mem_cons_self ..)), Option.bind_some,
      over_bare fun d hd => hbare d (List.mem_cons_of_mem _ hd)]
  · rwa [List.reverse_append, List.reverse_reverse, List.reverse_singleton, List.singleton_append]

/-- The characters of an exponent. -/
theorem isBare_of_mem_exponentText {exponent : Option ExponentText}
    (h : ∀ e ∈ exponent, e.WellFormed) {c : Char} (hc : c ∈ exponentText exponent) :
    isBare c = true := by
  cases exponent with
  | none => cases hc
  | some e =>
      obtain ⟨hmark, hsign, hdigits⟩ := h e rfl
      rcases List.mem_cons.mp hc with rfl | hc
      · rcases hmark with hmark | hmark <;> rw [hmark] <;> rfl
      · rcases List.mem_append.mp hc with hc | hdigit
        · rcases hsign with hnone | hplus | hminus
          · rw [hnone] at hc
            cases hc
          · rw [hplus] at hc
            obtain rfl := List.mem_singleton.mp hc
            rfl
          · rw [hminus] at hc
            obtain rfl := List.mem_singleton.mp hc
            rfl
        · exact isBare_of_isDigit (hdigits.2 c hdigit)

/-- The characters of a number. -/
theorem isBare_of_mem_text {n : NumberText} (h : n.WellFormed) {c : Char} (hc : c ∈ n.text) :
    isBare c = true := by
  obtain ⟨hwhole, -, hfraction, hexponent⟩ := h
  rcases List.mem_append.mp hc with hsign | hc
  · rw [signText] at hsign
    split_ifs at hsign
    · obtain rfl := List.mem_singleton.mp hsign
      rfl
    · cases hsign
  rcases List.mem_append.mp hc with hdigit | hc
  · exact isBare_of_isDigit (hwhole.2 c hdigit)
  rcases List.mem_append.mp hc with hpoint | hc
  · rw [pointText] at hpoint
    split_ifs at hpoint
    · cases hpoint
    · rcases List.mem_cons.mp hpoint with rfl | hdigit
      · rfl
      · exact isBare_of_isDigit (hfraction c hdigit)
  · exact isBare_of_mem_exponentText hexponent hc

/-- **A NUMBER** is read as what it says. -/
theorem reads_number {n : NumberText} (h : n.WellFormed) : Reads n.value n.text := by
  have hread := readNumber?_text h
  have hempty : readNumber? [] = none := by decide
  have hword : readNumber? "null".toList = none := by decide
  have hnull : n.text ≠ "null".toList := by
    intro hnull
    rw [hnull, hword] at hread
    cases hread
  refine reads_scalar ?_ (fun c => isBare_of_mem_text h) ?_
  · intro hnil
    rw [hnil, hempty] at hread
    cases hread
  · rw [scalar?, if_neg hnull, hread]
    rfl

section Joined

variable {α β : Type} {holds : List α → Reader → Prop} {text : β → List Char} {told : β → α}

/-- Parts behind the first, each with a comma in front, are read one by one. -/
theorem over_more {more : List β}
    (hmore : ∀ part ∈ more, ∀ before reader, holds before reader →
      ∃ reader', reader.over (',' :: text part) = some reader' ∧ holds (told part :: before) reader')
    {before : List α} {reader : Reader} (h : holds before reader) :
    ∃ reader', reader.over ((more.map text).flatMap (',' :: ·)) = some reader'
      ∧ holds ((more.map told).reverse ++ before) reader' := by
  induction more generalizing reader before with
  | nil => exact ⟨reader, rfl, h⟩
  | cons part more ih =>
      obtain ⟨middle, hmiddle, hnext⟩ := hmore part (List.mem_cons_self ..) before reader h
      obtain ⟨last, hlast, hall⟩ :=
        ih (fun other hother => hmore other (List.mem_cons_of_mem _ hother)) hnext
      refine ⟨last, ?_, ?_⟩
      · rw [List.map_cons, List.flatMap_cons, Reader.over_append, hmiddle, Option.bind_some, hlast]
      · rwa [List.map_cons, List.reverse_cons, List.append_assoc]

/-- So are all parts, if there are any. -/
theorem over_joined {start : Reader} {parts : List β} (hne : parts ≠ [])
    (hfirst : ∀ part ∈ parts,
      ∃ reader, start.over (text part) = some reader ∧ holds [told part] reader)
    (hmore : ∀ part ∈ parts, ∀ before reader, holds before reader →
      ∃ reader', reader.over (',' :: text part) = some reader'
        ∧ holds (told part :: before) reader') :
    ∃ reader, start.over (joined (parts.map text)) = some reader
      ∧ holds (parts.map told).reverse reader := by
  obtain ⟨part, more, rfl⟩ := List.exists_cons_of_ne_nil hne
  obtain ⟨first, hover, hone⟩ := hfirst part (List.mem_cons_self ..)
  obtain ⟨last, hlast, hall⟩ :=
    over_more (fun other hother => hmore other (List.mem_cons_of_mem _ hother)) hone
  refine ⟨last, ?_, ?_⟩
  · rw [List.map_cons, joined, Reader.over_append, hover, Option.bind_some, hlast]
  · rwa [List.map_cons, List.reverse_cons]

end Joined

/-- The reader is behind an item of an array, which it has read with those before it,
    the last first. -/
inductive InArray (frames : List Frame) : List Json → Reader → Prop
  | intro {value : Json} {items : List Json} {reader : Reader}
      (h : reader.Done value (.array items :: frames)) : InArray frames (value :: items) reader

/-- The reader is behind a field of an object. -/
inductive InObject (frames : List Frame) : List (String × Json) → Reader → Prop
  | intro {value : Json} {fields : List (String × Json)} {name : String} {reader : Reader}
      (h : reader.Done value (.object fields name :: frames)) :
      InObject frames ((name, value) :: fields) reader

theorem InArray.closed {frames : List Frame} {items : List Json} {reader : Reader}
    (h : InArray frames items reader) {closing : List Char}
    (hclosing : ∀ c ∈ closing, isSpace c = true) :
    reader.over (closing ++ [']']) = some ⟨.between, .after (.arr items.reverse) frames⟩ := by
  obtain ⟨hdone⟩ := h
  exact hdone.closed hclosing (by decide) rfl

theorem InObject.closed {frames : List Frame} {fields : List (String × Json)} {reader : Reader}
    (h : InObject frames fields reader) {closing : List Char}
    (hclosing : ∀ c ∈ closing, isSpace c = true) :
    reader.over (closing ++ ['\x7d']) = some ⟨.between, .after (.obj fields.reverse) frames⟩ := by
  obtain ⟨hdone⟩ := h
  exact hdone.closed hclosing (by decide) rfl

/-- **AN ARRAY** is read as its items. -/
theorem reads_array {items : List (Json × List Char)} (hitems : ∀ item ∈ items, Reads item.1 item.2)
    {closing : List Char} (hclosing : ∀ c ∈ closing, isSpace c = true) :
    Reads (.arr (items.map (·.1))) ('[' :: (joined (items.map (·.2)) ++ (closing ++ [']']))) := by
  intro frames
  refine ⟨⟨.between, .after (.arr (items.map (·.1))) frames⟩, ?_, .read⟩
  show (Reader.start (.array [] :: frames)).over _ = _
  by_cases hne : items = []
  · rw [hne, List.map_nil, joined, List.nil_append, Reader.over_append, Reader.start,
      over_spaces hclosing, Option.bind_some]
    rfl
  · obtain ⟨last, hover, hall⟩ : ∃ reader,
        (Reader.start (.array [] :: frames)).over (joined (items.map (·.2))) = some reader
          ∧ InArray frames (items.map (·.1)).reverse reader := by
      refine over_joined hne (fun item hitem => ?_) ?_
      · obtain ⟨reader, hover, hdone⟩ := hitems item hitem (.array [] :: frames)
        exact ⟨reader, hover, .intro hdone⟩
      · rintro item hitem _ reader ⟨hdone⟩
        obtain ⟨next, hover, hnext⟩ := hitems item hitem (.array _ :: frames)
        refine ⟨next, ?_, .intro hnext⟩
        rw [Reader.over_cons, hdone.step (by decide)]
        exact hover
    rw [Reader.over_append, hover, Option.bind_some, hall.closed hclosing, List.reverse_reverse]

/-- A name and its value in an object. -/
theorem reads_member {m : Member} (hnamed : m.Named) (hvalue : Reads m.value m.valueText)
    (fields : List (String × Json)) (frames : List Frame) :
    ∃ reader, (⟨.between, .nameDue fields frames⟩ : Reader).over m.text = some reader
      ∧ InObject frames ((m.name, m.value) :: fields) reader := by
  obtain ⟨reader, hover, hdone⟩ := hvalue (.object fields m.name :: frames)
  refine ⟨reader, ?_, .intro hdone⟩
  have hsplit : m.text = m.before ++ ('\x22' :: (m.nameText ++ ['\x22'])
      ++ (m.after ++ ':' :: m.valueText)) := by
    simp only [Member.text, List.cons_append, List.append_assoc, List.nil_append]
  have hcolon : (⟨.between, .colonDue fields m.name frames⟩ : Reader).step ':'
      = some (Reader.start (.object fields m.name :: frames)) := rfl
  rw [hsplit, Reader.over_append, over_spaces hnamed.before, Option.bind_some,
    Reader.over_append, over_quoted hnamed.name]
  show (Reader.over ⟨.between, .colonDue fields m.name frames⟩ _) = _
  rw [Reader.over_append, over_spaces hnamed.after, Option.bind_some, Reader.over_cons, hcolon,
    Option.bind_some, hover]

/-- **AN OBJECT** is read as its fields. -/
theorem reads_object {members : List Member} (hnamed : ∀ m ∈ members, m.Named)
    (hvalues : ∀ m ∈ members, Reads m.value m.valueText) {closing : List Char}
    (hclosing : ∀ c ∈ closing, isSpace c = true) :
    Reads (.obj (members.map fun m => (m.name, m.value)))
      ('\x7b' :: (joined (members.map Member.text) ++ (closing ++ ['\x7d']))) := by
  intro frames
  refine ⟨⟨.between, .after (.obj (members.map fun m => (m.name, m.value))) frames⟩, ?_, .read⟩
  show (⟨.between, .nameDue [] frames⟩ : Reader).over _ = _
  by_cases hne : members = []
  · rw [hne, List.map_nil, joined, List.nil_append, Reader.over_append, over_spaces hclosing,
      Option.bind_some]
    rfl
  · obtain ⟨last, hover, hall⟩ : ∃ reader,
        (⟨.between, .nameDue [] frames⟩ : Reader).over (joined (members.map Member.text))
            = some reader
          ∧ InObject frames (members.map fun m => (m.name, m.value)).reverse reader := by
      refine over_joined hne (fun m hm => reads_member (hnamed m hm) (hvalues m hm) [] frames) ?_
      rintro m hm _ reader ⟨hdone⟩
      obtain ⟨next, hover, hnext⟩ := reads_member (hnamed m hm) (hvalues m hm) _ frames
      refine ⟨next, ?_, hnext⟩
      rw [Reader.over_cons, hdone.step (by decide)]
      exact hover
    rw [Reader.over_append, hover, Option.bind_some, hall.closed hclosing, List.reverse_reverse]

/-- **READ**: the reader comes to the end of every text that says a value, and has read
    this value. -/
theorem Spells.reads {value : Json} {text : List Char} (h : Spells value text) :
    Reads value text := by
  induction h with
  | null => exact reads_scalar (List.cons_ne_nil _ _) (List.all_eq_true.mp rfl) (if_pos rfl)
  | number hnumber => exact reads_number hnumber
  | @string text pieces hstring =>
      intro frames
      exact ⟨_, over_quoted hstring (.valueDue frames), .read⟩
  | array _ hclosing ih => exact reads_array ih hclosing
  | object hnamed _ hclosing ih => exact reads_object hnamed ih hclosing
  | before hspace _ ih =>
      intro frames
      obtain ⟨reader, hover, hdone⟩ := ih frames
      exact ⟨reader, (congrArg (Option.bind · _) (if_pos hspace)).trans hover, hdone⟩
  | @after value text c hspace _ ih =>
      intro frames
      obtain ⟨reader, hover, hdone⟩ := ih frames
      refine ⟨⟨.between, .after value frames⟩, ?_, .read⟩
      rw [Reader.over_append, hover, Option.bind_some, Reader.over_cons, hdone.space hspace]
      rfl

/-- **EVERY TEXT** of the grammar is read as the value that it says. -/
theorem read_of_spells {value : Json} {text : List Char} (h : Spells value text) :
    read text = some value := by
  obtain ⟨reader, hover, hdone⟩ := h.reads []
  rw [read, hover, Option.bind_some]
  cases hdone with
  | read => rfl
  | due hscalar => exact hscalar

/-- **ONE VALUE**: no text says two values. -/
theorem Spells.unique {value other : Json} {text : List Char} (h : Spells value text)
    (hother : Spells other text) : value = other :=
  Option.some.inj ((read_of_spells h).symm.trans (read_of_spells hother))

/-- A comma too many, a zero too many and an open bracket are refused. -/
example : read "[1,]".toList = none ∧ read "01".toList = none ∧ read "[[]".toList = none := by
  decide

end RunTimings.Json
