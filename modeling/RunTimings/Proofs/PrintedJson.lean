import RunTimings.Json.Printer
import RunTimings.Proofs.JsonGrammar

/-! # Printed JSON — what is printed for a value says this value

    Every value has a text, and the text is JSON that says the value, provided that
    its binary64 numbers are finite; these are written with the digits of their
    shortest decimals.

    * `charText_escaped`, `stringText_escaped` — strings.
    * `spells_ofInt`, `spells_realText` — numbers; `Writes` is what a decimal has to
      look like, written out or with an exponent.
    * **`spells_print`** — all values. -/

namespace RunTimings.Json

/-! ## Strings that are printed -/

/-- A character is printed as one of the forms that say it. -/
theorem charText_escaped (c : Char) : CharText c (escaped c) := by
  have hcontrol : ∀ n < 0x20,
      hexValue? ['0', '0', Nat.digitChar (n / 16), Nat.digitChar (n % 16)] = some n := by
    decide
  unfold escaped
  split_ifs with hquote hbackslash hb hf hn hr ht hsmall
  · exact .letter (by rw [hquote]; rfl)
  · exact .letter (by rw [hbackslash]; rfl)
  · exact .letter (by rw [hb]; rfl)
  · exact .letter (by rw [hf]; rfl)
  · exact .letter (by rw [hn]; rfl)
  · exact .letter (by rw [hr]; rfl)
  · exact .letter (by rw [ht]; rfl)
  · have h := CharText.number rfl (hcontrol c.toNat hsmall) (Or.inl (by omega))
    rwa [Char.ofNat_toNat] at h
  · exact .plain hquote hbackslash (Nat.le_of_not_lt hsmall)

theorem stringText_escaped (text : List Char) : StringText text (text.flatMap escaped) := by
  induction text with
  | nil => exact .nil
  | cons c text ih =>
      rw [List.flatMap_cons]
      exact .cons (charText_escaped c) ih

/-! ## Whole numbers that are printed -/

/-- The numeral of a number other than zero has no zero in front. -/
theorem head?_ofNat {n : ℕ} (hpos : 0 < n) : (Numeral.ofNat n).head? ≠ some '0' := by
  induction n using Nat.strong_induction_on with
  | _ n ih =>
    rcases Nat.lt_or_ge n 10 with hsmall | hlarge
    · have hdigits : ∀ k < 10, 0 < k → [Nat.digitChar k].head? ≠ some '0' := by decide
      rw [Numeral.ofNat, Nat.toDigits_of_lt_base hsmall]
      exact hdigits n hsmall hpos
    · rw [Numeral.ofNat, Nat.toDigits_of_base_le (by decide) hlarge, List.head?_append]
      have hfront := ih (n / 10) (by omega) (by omega)
      cases hhead : (Numeral.ofNat (n / 10)).head? with
      | none => exact absurd (List.head?_eq_none_iff.mp hhead) Nat.toDigits_ne_nil
      | some c =>
          rw [hhead] at hfront
          rw [Numeral.ofNat] at hhead
          rw [hhead]
          exact hfront

theorem isNumeral_ofNat (n : ℕ) : IsNumeral (Numeral.ofNat n) :=
  ⟨Nat.toDigits_ne_nil, fun _ => Numeral.isDigit_of_mem_ofNat⟩

theorem isNumeral_zero : IsNumeral ['0'] :=
  isNumeral_ofNat 0

/-- A numeral does not begin with a zero but if it is nothing else. -/
theorem unpadded_ofNat {n : ℕ} (h : (Numeral.ofNat n).head? = some '0') :
    Numeral.ofNat n = ['0'] := by
  rcases Nat.eq_zero_or_pos n with rfl | hpos
  · rfl
  · exact absurd h (head?_ofNat hpos)

/-- Digits with or without a minus sign say a whole number. -/
theorem spells_signed (negative : Bool) (n : ℕ) :
    Spells (.int (if negative then -(n : ℤ) else n)) (signText negative ++ Numeral.ofNat n) := by
  have h := Spells.number (n := ⟨negative, Numeral.ofNat n, [], none⟩)
    ⟨isNumeral_ofNat n, unpadded_ofNat, fun c hc => absurd hc List.not_mem_nil,
      fun e he => nomatch he⟩
  rw [NumberText.value, if_pos ⟨rfl, rfl⟩, Numeral.value_ofNat] at h
  simpa only [NumberText.text, pointText, exponentText, if_true, Option.elim_none,
    List.append_nil] using h

/-- **WHOLE NUMBERS** are printed as numbers that say them. -/
theorem spells_ofInt (n : ℤ) : Spells (.int n) (Numeral.ofInt n) := by
  cases n with
  | ofNat n => exact spells_signed false n
  | negSucc n => exact spells_signed true (n + 1)

/-! ## Binary64 numbers that are printed -/

/-- The digits of a decimal in scientific form begin with a zero only if it is zero. -/
structure Tidy (d : Scientific) : Prop where
  digits : IsNumeral d.digits
  unpadded : d.digits.head? = some '0' → d = ⟨['0'], 0⟩

/-- The lower end of the span of a positive number is positive. -/
theorem low_ofBinary_pos {mantissa : ℕ} (exponent : ℤ) (positive : 0 < mantissa) :
    0 < (Span.ofBinary mantissa exponent positive).low := by
  have hreach := reachBelow_le mantissa exponent
  show 0 < (4 * mantissa - reachBelow mantissa exponent)
    * (Nat.pow 5 (-(exponent - 2)).toNat * Nat.pow 2 (exponent - 2).toNat)
  refine Nat.mul_pos (by omega) (Nat.mul_pos ?_ ?_) <;> exact Nat.pow_pos (by decide)

theorem tidy_trimZeros {n : ℕ} (hpos : 0 < n) (exponent : ℤ) :
    Tidy ⟨trimZeros (Numeral.ofNat n), exponent⟩ := by
  obtain ⟨zeros, hzeros⟩ := trimZeros_append (Numeral.ofNat n)
  have hne : trimZeros (Numeral.ofNat n) ≠ [] := by
    intro hnil
    have hvalue := congrArg Numeral.value hzeros
    rw [hnil, List.nil_append, Numeral.value_ofNat, Numeral.value_replicate_zero] at hvalue
    omega
  refine ⟨⟨hne, fun c hc => ?_⟩, fun hhead => ?_⟩
  · refine Numeral.isDigit_of_mem_ofNat (n := n) ?_
    rw [hzeros]
    exact List.mem_append_left _ hc
  · have hfirst := head?_ofNat hpos
    rw [hzeros, List.head?_append_of_ne_nil _ hne] at hfirst
    exact absurd hhead hfirst

/-- The shortest decimal of a positive number is not zero. -/
theorem shortest_pos (tie : Tie) {mantissa : ℕ} (exponent : ℤ) (positive : 0 < mantissa) :
    0 < ((Span.ofBinary mantissa exponent positive).shortest tie).1 := by
  have hlow := low_ofBinary_pos exponent positive
  have hinside := (Span.ofBinary mantissa exponent positive).inside_shortest tie
  refine Nat.pos_of_ne_zero fun hzero => ?_
  rw [hzero, Nat.zero_mul, Span.inside] at hinside
  split at hinside
  · have := (of_decide_eq_true hinside).1
    omega
  · have := (of_decide_eq_true hinside).1
    omega

theorem tidy_shortestDecimal (tie : Tie) (mantissa : ℕ) (exponent : ℤ) :
    Tidy (shortestDecimal tie mantissa exponent) := by
  rw [shortestDecimal]
  split
  · rename_i positive
    exact tidy_trimZeros (shortest_pos tie exponent positive) _
  · exact ⟨isNumeral_zero, fun _ => rfl⟩

/-- A number with a fraction or an exponent, of the sign and the size of a decimal. -/
structure Writes (n : NumberText) (negative : Bool) (d : Scientific) : Prop where
  wellFormed : n.WellFormed
  sign : n.negative = negative
  real : ¬ (n.fraction = [] ∧ n.exponent = none)
  same : decimalValue (Numeral.value (n.whole ++ n.fraction)) n.lastPlace = d.number

/-- What writes the shortest decimal of a binary64 number says that number. -/
theorem Writes.spells {x : Float} {negative : Bool} {mantissa : ℕ} {exponent : ℤ}
    (hx : Binary64.ofFloat x = .finite negative mantissa exponent) {tie : Tie} {n : NumberText}
    (h : Writes n negative (shortestDecimal tie mantissa exponent)) :
    Spells (.real x) n.text := by
  have hspells := Spells.number h.wellFormed
  rwa [NumberText.value, if_neg h.real, h.sign, readDecimal_of_shortest hx h.same] at hspells

theorem isDigit_of_mem_zeros {n : ℕ} {c : Char} (hc : c ∈ List.replicate n '0') :
    c.isDigit = true := by
  rw [List.eq_of_mem_replicate hc]
  decide

/-- A decimal below one is written out behind zeros. -/
theorem writes_plain_below_one (negative : Bool) {d : Scientific} (htidy : Tidy d)
    (hbelow : d.exponent < 0) :
    ∃ n : NumberText, n.text = signText negative ++ d.plain ∧ Writes n negative d := by
  obtain ⟨hne, hdigits⟩ := htidy.digits
  have hfraction : List.replicate (-d.exponent - 1).toNat '0' ++ d.digits ≠ [] :=
    List.append_ne_nil_of_right_ne_nil _ hne
  refine ⟨⟨negative, ['0'], List.replicate (-d.exponent - 1).toNat '0' ++ d.digits, none⟩, ?_,
    ⟨isNumeral_zero, fun _ => rfl, ?_, fun e he => nomatch he⟩, rfl, fun h => hfraction h.1, ?_⟩
  · rw [NumberText.text, Scientific.plain, if_pos hbelow, pointText, if_neg hfraction,
      exponentText, Option.elim_none, List.append_nil]
    rfl
  · intro c hc
    exact (List.mem_append.mp hc).elim isDigit_of_mem_zeros (hdigits c)
  · have hplace : (0 : ℤ) - (List.replicate (-d.exponent - 1).toNat '0' ++ d.digits).length
        = d.exponent + 1 - d.digits.length := by
      rw [List.length_append, List.length_replicate]
      omega
    have hvalue : Numeral.value (['0'] ++ (List.replicate (-d.exponent - 1).toNat '0' ++ d.digits))
        = Numeral.value d.digits := by
      rw [Numeral.value_append, Numeral.value_append, Numeral.value_replicate_zero,
        show Numeral.value ['0'] = 0 from rfl, Nat.zero_mul, Nat.zero_mul, Nat.zero_add,
        Nat.zero_add]
    show decimalValue (Numeral.value (['0'] ++ _)) ((0 : ℤ) - _) = _
    rw [hplace, hvalue]
    rfl

/-- The digits in front of the point of a decimal from one on. -/
theorem whole_from_one {d : Scientific} (htidy : Tidy d) {k : ℕ} (hk : d.exponent = k) :
    IsNumeral (d.digits.take (k + 1) ++ List.replicate (k + 1 - d.digits.length) '0')
      ∧ ((d.digits.take (k + 1) ++ List.replicate (k + 1 - d.digits.length) '0').head? = some '0' →
        d.digits.take (k + 1) ++ List.replicate (k + 1 - d.digits.length) '0' = ['0']) := by
  obtain ⟨⟨hne, hdigits⟩, hunpadded⟩ := htidy
  obtain ⟨first, rest, hcons⟩ := List.exists_cons_of_ne_nil hne
  refine ⟨⟨?_, fun c hc => ?_⟩, fun hhead => ?_⟩
  · rw [hcons, List.take_succ_cons]
    exact List.cons_ne_nil _ _
  · exact (List.mem_append.mp hc).elim (fun h => hdigits c (List.mem_of_mem_take h))
      isDigit_of_mem_zeros
  · rw [hcons, List.take_succ_cons] at hhead
    have hd := hunpadded (by rw [hcons]; exact hhead)
    rw [hd] at hk
    obtain rfl : k = 0 := by
      have : (0 : ℤ) = k := hk
      omega
    rw [hd]
    rfl

/-- A decimal from one on is written out, the point after some of its digits. -/
theorem writes_plain_divided (negative : Bool) {d : Scientific} (htidy : Tidy d) {k : ℕ}
    (hk : d.exponent = k) (hdrop : d.digits.drop (k + 1) ≠ []) :
    ∃ n : NumberText, n.text = signText negative ++ d.plain ∧ Writes n negative d := by
  obtain ⟨hwhole, hunpadded⟩ := whole_from_one htidy hk
  have hplaces : d.exponent.toNat + 1 = k + 1 := by omega
  have hlength : k + 1 < d.digits.length := by
    by_contra hle
    exact hdrop (List.drop_of_length_le (Nat.le_of_not_lt hle))
  have hzeros : List.replicate (k + 1 - d.digits.length) '0' = [] := by
    rw [Nat.sub_eq_zero_of_le hlength.le]
    rfl
  refine ⟨⟨negative, d.digits.take (k + 1) ++ List.replicate (k + 1 - d.digits.length) '0',
    d.digits.drop (k + 1), none⟩, ?_, ⟨hwhole, hunpadded, fun c hc => ?_, fun e he => nomatch he⟩,
    rfl, fun h => hdrop h.1, ?_⟩
  · rw [NumberText.text, Scientific.plain, if_neg (by omega)]
    simp only [hplaces, if_neg hdrop, pointText, exponentText, Option.elim_none, List.append_nil]
  · exact htidy.digits.2 c (List.mem_of_mem_drop hc)
  · have hplace : (0 : ℤ) - (d.digits.drop (k + 1)).length = d.exponent + 1 - d.digits.length := by
      rw [List.length_drop]
      omega
    show decimalValue (Numeral.value (_ ++ _)) ((0 : ℤ) - _) = _
    rw [hplace, hzeros, List.append_nil, List.take_append_drop]
    rfl

/-- A decimal from one on is written out, with zeros up to the point and one behind. -/
theorem writes_plain_filled (negative : Bool) {d : Scientific} (htidy : Tidy d) {k : ℕ}
    (hk : d.exponent = k) (hdrop : d.digits.drop (k + 1) = []) :
    ∃ n : NumberText, n.text = signText negative ++ d.plain ∧ Writes n negative d := by
  obtain ⟨hwhole, hunpadded⟩ := whole_from_one htidy hk
  have hplaces : d.exponent.toNat + 1 = k + 1 := by omega
  have hlength : d.digits.length ≤ k + 1 := List.drop_eq_nil_iff.mp hdrop
  refine ⟨⟨negative, d.digits.take (k + 1) ++ List.replicate (k + 1 - d.digits.length) '0',
    ['0'], none⟩, ?_, ⟨hwhole, hunpadded, isNumeral_zero.2, fun e he => nomatch he⟩, rfl,
    fun h => List.cons_ne_nil _ _ h.1, ?_⟩
  · rw [NumberText.text, Scientific.plain, if_neg (by omega)]
    simp only [hplaces, hdrop, if_true, pointText, exponentText, Option.elim_none,
      List.append_nil]
    rfl
  · have hplace : d.exponent + 1 - d.digits.length = ((k + 1 - d.digits.length : ℕ) : ℤ) := by
      omega
    have hvalue : Numeral.value (d.digits.take (k + 1)
        ++ List.replicate (k + 1 - d.digits.length) '0' ++ ['0'])
        = Numeral.value d.digits * 10 ^ (k + 1 - d.digits.length) * 10 := by
      rw [Numeral.value_append, Numeral.value_append, Numeral.value_replicate_zero,
        List.length_replicate, List.take_of_length_le hlength]
      rfl
    show decimalValue (Numeral.value (_ ++ _)) ((0 : ℤ) - (1 : ℕ)) = _
    rw [hvalue, Scientific.number, decimalValue, decimalValue, hplace, zpow_natCast]
    push_cast
    rw [zpow_neg_one]
    field_simp

/-- The exponent of a decimal with its sign, which is always written. -/
def signedExponent (exponent : ℤ) : ExponentText :=
  ⟨'e', if exponent < 0 then ['-'] else ['+'], Numeral.ofNat exponent.natAbs⟩

theorem text_signedExponent (exponent : ℤ) :
    (signedExponent exponent).text
      = 'e' :: ((if exponent < 0 then [] else ['+']) ++ Numeral.ofInt exponent) := by
  rw [ExponentText.text, signedExponent]
  cases exponent with
  | ofNat n => rfl
  | negSucc n =>
      simp only [if_pos (Int.negSucc_lt_zero n)]
      rfl

theorem value_signedExponent (exponent : ℤ) : (signedExponent exponent).value = exponent := by
  rw [ExponentText.value, signedExponent, Numeral.value_ofNat]
  dsimp only
  split_ifs with hneg hminus hminus
  · omega
  · exact absurd rfl hminus
  · exact absurd hminus (by decide)
  · omega

theorem wellFormed_signedExponent (exponent : ℤ) : (signedExponent exponent).WellFormed := by
  refine ⟨.inl rfl, ?_, isNumeral_ofNat _⟩
  rw [signedExponent]
  dsimp only
  split_ifs
  · exact .inr (.inr rfl)
  · exact .inr (.inl rfl)

/-- A decimal is written with an exponent behind its first digit. -/
theorem writes_withExponent (negative : Bool) {d : Scientific} (htidy : Tidy d) :
    ∃ n : NumberText, n.text = signText negative ++ d.withExponent ['+']
      ∧ Writes n negative d := by
  obtain ⟨⟨hne, hdigits⟩, -⟩ := htidy
  obtain ⟨first, rest, hcons⟩ := List.exists_cons_of_ne_nil hne
  rw [hcons] at hdigits
  refine ⟨⟨negative, [first], rest, some (signedExponent d.exponent)⟩, ?_,
    ⟨⟨List.cons_ne_nil _ _, fun c hc => hdigits c ?_⟩, fun hfirst => ?_,
      fun c hc => hdigits c (List.mem_cons_of_mem _ hc), fun e he => ?_⟩, rfl,
    fun h => Option.some_ne_none _ h.2, ?_⟩
  · rw [NumberText.text, Scientific.withExponent, hcons, exponentText, Option.elim_some,
      text_signedExponent]
    cases rest with
    | nil => rfl
    | cons second rest => rfl
  · rw [List.mem_singleton.mp hc]
    exact List.mem_cons_self ..
  · rw [Option.some.inj hfirst]
  · obtain rfl := Option.some.inj he
    exact wellFormed_signedExponent _
  · have hplace : d.exponent - rest.length = d.exponent + 1 - d.digits.length := by
      rw [hcons, List.length_cons]
      omega
    show decimalValue (Numeral.value ([first] ++ rest))
      ((signedExponent d.exponent).value - rest.length) = _
    rw [value_signedExponent, hplace, List.singleton_append, ← hcons]
    rfl

/-- A decimal is written in one of the two ways. -/
theorem writes_decimal (negative : Bool) {d : Scientific} (htidy : Tidy d) :
    ∃ n : NumberText, n.text = signText negative ++ floatStyle.decimal d
      ∧ Writes n negative d := by
  rw [FloatStyle.decimal]
  split
  · by_cases hbelow : d.exponent < 0
    · exact writes_plain_below_one negative htidy hbelow
    · obtain ⟨k, hk⟩ := Int.eq_ofNat_of_zero_le (not_lt.mp hbelow)
      by_cases hdrop : d.digits.drop (k + 1) = []
      · exact writes_plain_filled negative htidy hk hdrop
      · exact writes_plain_divided negative htidy hk hdrop
  · exact writes_withExponent negative htidy

/-- A number is finite: neither infinite nor none at all. -/
def IsFinite (x : Float) : Prop :=
  ∃ negative mantissa exponent, Binary64.ofFloat x = .finite negative mantissa exponent

/-- **BINARY64 NUMBERS**, if finite, are printed as numbers that say them. -/
theorem spells_realText {x : Float} (hfinite : IsFinite x) : Spells (.real x) (realText x) := by
  obtain ⟨negative, mantissa, exponent, hx⟩ := hfinite
  obtain ⟨n, htext, hwrites⟩ :=
    writes_decimal negative (tidy_shortestDecimal .toEven mantissa exponent)
  have hspells := hwrites.spells hx
  rw [htext] at hspells
  simp only [realText, FloatStyle.text, hx]
  exact hspells

/-! ## Values that are printed -/

/-- Every binary64 number in a value has a property, and the names of every object in
    it have another. -/
inductive Every (number : Float → Prop) (names : List String → Prop) : Json → Prop
  | null : Every number names .null
  | int (n : ℤ) : Every number names (.int n)
  | real {x : Float} (hnumber : number x) : Every number names (.real x)
  | str (text : String) : Every number names (.str text)
  | arr {items : List Json} (hitems : ∀ item ∈ items, Every number names item) :
      Every number names (.arr items)
  | obj {fields : List (String × Json)} (hnames : names (fields.map (·.1)))
      (hfields : ∀ field ∈ fields, Every number names field.2) : Every number names (.obj fields)

theorem Every.mono {number number' : Float → Prop} {names names' : List String → Prop}
    (hnumber : ∀ x, number x → number' x) (hnames : ∀ ns, names ns → names' ns) {value : Json}
    (h : Every number names value) : Every number' names' value := by
  induction h with
  | null => exact .null
  | int n => exact .int n
  | real hx => exact .real (hnumber _ hx)
  | str text => exact .str text
  | arr _ ih => exact .arr ih
  | obj hns _ ih => exact .obj (hnames _ hns) ih

theorem printItems_eq (depth : ℕ) (items : List Json) :
    printItems depth items
      = (items.map fun item => '\n' :: (margin depth ++ print depth item)).flatMap (',' :: ·) := by
  induction items with
  | nil => rfl
  | cons item items ih =>
      rw [printItems, ih, List.map_cons, List.flatMap_cons]
      simp only [List.cons_append, List.append_assoc]

/-- A name and its value as they are printed. -/
def member (depth : ℕ) (field : String × Json) : Member where
  before := '\n' :: margin depth
  name := field.1
  nameText := field.1.toList.flatMap escaped
  after := []
  value := field.2
  valueText := ' ' :: print depth field.2

theorem text_member (depth : ℕ) (name : String) (value : Json) :
    (member depth (name, value)).text
      = '\n' :: (margin depth ++ (quoted name ++ ':' :: ' ' :: print depth value)) := by
  simp only [Member.text, member, quoted, List.cons_append, List.append_assoc, List.nil_append]

theorem printFields_eq (depth : ℕ) (fields : List (String × Json)) :
    printFields depth fields
      = (fields.map fun field => (member depth field).text).flatMap (',' :: ·) := by
  induction fields with
  | nil => rfl
  | cons field fields ih =>
      rw [printFields, ih, List.map_cons, List.flatMap_cons, text_member]
      simp only [List.cons_append, List.append_assoc]

theorem isSpace_of_mem_margin (depth : ℕ) {c : Char} (hc : c ∈ '\n' :: margin depth) :
    isSpace c = true := by
  rcases List.mem_cons.mp hc with rfl | hspace
  · rfl
  · rw [List.eq_of_mem_replicate hspace]
    rfl

theorem named_member (depth : ℕ) (field : String × Json) : (member depth field).Named :=
  ⟨fun _ => isSpace_of_mem_margin depth, stringText_escaped _, fun _ hc => absurd hc List.not_mem_nil⟩

/-- An array of items each of which has a text. -/
theorem spells_arr {items : List Json} {textOf : Json → List Char}
    (hitems : ∀ item ∈ items, Spells item (textOf item)) {closing : List Char}
    (hclosing : ∀ c ∈ closing, isSpace c = true) :
    Spells (.arr items) ('[' :: (joined (items.map textOf) ++ (closing ++ [']']))) := by
  have h : Spells (.arr ((items.map fun item => (item, textOf item)).map (·.1)))
      ('[' :: (joined ((items.map fun item => (item, textOf item)).map (·.2))
        ++ (closing ++ [']']))) := by
    refine .array (fun pair hpair => ?_) hclosing
    obtain ⟨item, hitem, rfl⟩ := List.mem_map.mp hpair
    exact hitems item hitem
  simpa only [List.map_map, Function.comp_def, List.map_id'] using h

/-- An object of fields whose values are printed. -/
theorem spells_obj {fields : List (String × Json)} {depth : ℕ}
    (hfields : ∀ field ∈ fields, Spells field.2 (print depth field.2)) {closing : List Char}
    (hclosing : ∀ c ∈ closing, isSpace c = true) :
    Spells (.obj fields) ('\x7b' :: (joined (fields.map fun field => (member depth field).text)
      ++ (closing ++ ['\x7d']))) := by
  have h : Spells (.obj ((fields.map (member depth)).map fun m => (m.name, m.value)))
      ('\x7b' :: (joined ((fields.map (member depth)).map Member.text)
        ++ (closing ++ ['\x7d']))) := by
    refine .object (fun m hm => ?_) (fun m hm => ?_) hclosing
    · obtain ⟨field, -, rfl⟩ := List.mem_map.mp hm
      exact named_member depth field
    · obtain ⟨field, hfield, rfl⟩ := List.mem_map.mp hm
      exact .before rfl (hfields field hfield)
  simpa only [List.map_map, Function.comp_def, member, Prod.eta, List.map_id'] using h

/-- **PRINTED**: the text of a value says this value, if all of its numbers are finite. -/
theorem spells_print {names : List String → Prop} {value : Json}
    (h : Every IsFinite names value) (depth : ℕ) :
    Spells value (print depth value) := by
  have hnone : ∀ c ∈ ([] : List Char), isSpace c = true := fun _ hc => absurd hc List.not_mem_nil
  induction h generalizing depth with
  | null => exact .null
  | int n => exact spells_ofInt n
  | real hfinite => exact spells_realText hfinite
  | str text => exact .string (stringText_escaped _)
  | @arr items _ ih =>
      cases items with
      | nil => exact spells_arr (fun item hitem => ih item hitem depth) hnone
      | cons item items =>
          have hitems : ∀ other ∈ item :: items, Spells other
              ('\n' :: (margin (depth + 1) ++ print (depth + 1) other)) := fun other hother =>
            (ih other hother (depth + 1)).beforeAll fun _ => isSpace_of_mem_margin _
          have harr := spells_arr hitems fun _ => isSpace_of_mem_margin depth
          rw [List.map_cons, joined, ← printItems_eq] at harr
          rw [print]
          simpa only [List.cons_append, List.append_assoc] using harr
  | @obj fields _ _ ih =>
      cases fields with
      | nil => exact spells_obj (fun field hfield => ih field hfield depth) hnone
      | cons field fields =>
          have hobj := spells_obj (fun other hother => ih other hother (depth + 1))
            fun _ => isSpace_of_mem_margin depth
          rw [List.map_cons, joined, ← printFields_eq, text_member] at hobj
          rw [print]
          simpa only [List.cons_append, List.append_assoc] using hobj

end RunTimings.Json
