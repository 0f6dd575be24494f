import RunTimings.Proofs.NearestNumbers

/-! # Shortest decimals — every finite number is read back from its digits

    The shortest decimal of a number lies in its span, and a decimal in the span of
    a number is next to it.  So reading the digits with Lean's own reading of
    decimals gives the number again, to the last bit, its sign included.

    * `pack_of_finite` — the parts of a finite number make up its bits.
    * `Scientific.number` — the number that a scientific decimal stands for; that of
      a shortest decimal is in the span (`readsBack_shortestDecimal`).
    * **`readDecimal_of_shortest`** — whatever is written of the same size as the
      shortest decimal of a number, and with its sign, is read as the number. -/

namespace RunTimings

open Float.Model Float.Model.UnpackedFloat

/-! ## Bits -/

/-- The sign of a number. -/
def signOf (negative : Bool) : Sign :=
  if negative then .negative else .positive

/-- The parts of a finite number, as Lean has them. -/
def unpackedOf (negative : Bool) (mantissa : ℕ) (exponent : ℤ) : UnpackedFloat :=
  if positive : 0 < mantissa then .finite (signOf negative) mantissa exponent positive
  else .zero (signOf negative)

theorem unpackedOf_of_pos {mantissa : ℕ} (positive : 0 < mantissa) (negative : Bool)
    (exponent : ℤ) :
    unpackedOf negative mantissa exponent
      = .finite (signOf negative) mantissa exponent positive :=
  dif_pos positive

theorem unpackedOf_of_not_pos {mantissa : ℕ} (hzero : ¬ 0 < mantissa) (negative : Bool)
    (exponent : ℤ) : unpackedOf negative mantissa exponent = .zero (signOf negative) :=
  dif_neg hzero

theorem toNat_signOf (n : ℕ) : (signOf (decide (n % 2 = 1))).toBitVec.toNat = n % 2 := by
  rcases Nat.mod_two_eq_zero_or_one n with h | h <;> rw [h] <;> rfl

theorem toNat_packComponents (sign : Sign) (exponent : BitVec 11) (mantissa : BitVec 52) :
    (packComponents .binary64 sign exponent mantissa).toNat
      = (sign.toBitVec.toNat * 2 ^ 11 + exponent.toNat) * 2 ^ 52 + mantissa.toNat := by
  rw [packComponents, BitVec.toNat_append, BitVec.toNat_append,
    ← Nat.shiftLeft_add_eq_or_of_lt mantissa.isLt, ← Nat.shiftLeft_add_eq_or_of_lt exponent.isLt,
    Nat.shiftLeft_eq, Nat.shiftLeft_eq]

/-- Sixty-four bits are made up of a sign, an exponent and a mantissa. -/
theorem packComponents_eq {bits : BitVec 64} {sign : Sign} {exponent : BitVec 11}
    {mantissa : BitVec 52} (hsign : sign.toBitVec.toNat = bits.toNat / 2 ^ 63 % 2)
    (hexponent : exponent.toNat = bits.toNat / 2 ^ 52 % 2 ^ 11)
    (hmantissa : mantissa.toNat = bits.toNat % 2 ^ 52) :
    packComponents .binary64 sign exponent mantissa = bits := by
  refine BitVec.eq_of_toNat_eq ?_
  rw [toNat_packComponents, hsign, hexponent, hmantissa]
  have hlt : bits.toNat < 2 ^ 64 := bits.isLt
  omega

/-- What a pattern of bits that stands for a finite number is. -/
theorem ofBits_eq_finite {n : ℕ} {negative : Bool} {mantissa : ℕ} {exponent : ℤ}
    (h : Binary64.ofBits n = .finite negative mantissa exponent) :
    negative = decide (n / 2 ^ 63 % 2 = 1)
      ∧ ((n / 2 ^ 52 % 2 ^ 11 = 0 ∧ mantissa = n % 2 ^ 52 ∧ exponent = -1074)
        ∨ (0 < n / 2 ^ 52 % 2 ^ 11 ∧ n / 2 ^ 52 % 2 ^ 11 < 2047
          ∧ mantissa = 2 ^ 52 + n % 2 ^ 52
          ∧ exponent = ((n / 2 ^ 52 % 2 ^ 11 : ℕ) : ℤ) - 1075)) := by
  simp only [Binary64.ofBits, Nat.pow_eq] at h
  split at h
  · split at h <;> cases h
  · rename_i hmax
    split at h
    · rename_i hzero
      obtain ⟨rfl, rfl, rfl⟩ := Binary64.finite.inj h
      exact ⟨rfl, .inl ⟨hzero, rfl, rfl⟩⟩
    · rename_i hzero
      obtain ⟨rfl, rfl, rfl⟩ := Binary64.finite.inj h
      refine ⟨rfl, .inr ⟨Nat.pos_of_ne_zero hzero, ?_, rfl, rfl⟩⟩
      have hlt : n / 2 ^ 52 % 2 ^ 11 < 2 ^ 11 := Nat.mod_lt _ (by decide)
      omega

/-- The mantissa and the exponent of a finite number other than zero. -/
theorem canonical_of_finite {n : ℕ} {negative : Bool} {mantissa : ℕ} {exponent : ℤ}
    (h : Binary64.ofBits n = .finite negative mantissa exponent) (hpositive : 0 < mantissa) :
    Canonical mantissa exponent := by
  have hfraction : n % 2 ^ 52 < 2 ^ 52 := Nat.mod_lt _ (by decide)
  obtain ⟨-, ⟨-, hmantissa, hexponent⟩ | ⟨hlow, hhigh, hmantissa, hexponent⟩⟩ := ofBits_eq_finite h
  · refine ⟨hpositive, ?_, ?_, ?_, .inl hexponent⟩ <;> omega
  · refine ⟨hpositive, ?_, ?_, ?_, .inr ?_⟩ <;> omega

theorem pack_finite (sign : Sign) (mantissa : ℕ) (exponent : ℤ) (hpositive : 0 < mantissa) :
    UnpackedFloat.pack .binary64 (.finite sign mantissa exponent hpositive)
      = if 2 ^ 11 ≤ (exponent + (1023 : ℕ) + (52 : ℕ)).toNat + 1 then packedInfinity .binary64 sign
        else if mantissa.log2 + 1 = 53 then
          packComponents .binary64 sign (.ofNat 11 (exponent + (1023 : ℕ) + (52 : ℕ)).toNat)
            (.ofNat 52 mantissa)
        else packComponents .binary64 sign 0 (.ofNat 52 mantissa) := rfl

/-- A number with a leading digit is packed with its exponent. -/
theorem pack_normal {bits : BitVec 64} {sign : Sign}
    (hsign : sign.toBitVec.toNat = bits.toNat / 2 ^ 63 % 2) {scale : ℕ}
    (hscale : scale = bits.toNat / 2 ^ 52 % 2 ^ 11) (hhigh : scale < 2047)
    (hpositive : 0 < 2 ^ 52 + bits.toNat % 2 ^ 52) :
    UnpackedFloat.pack .binary64
      (.finite sign (2 ^ 52 + bits.toNat % 2 ^ 52) ((scale : ℤ) - 1075) hpositive) = bits := by
  have hfraction : bits.toNat % 2 ^ 52 < 2 ^ 52 := Nat.mod_lt _ (by decide)
  have hlog : (2 ^ 52 + bits.toNat % 2 ^ 52).log2 + 1 = 53 :=
    congrArg (· + 1) ((Nat.log2_eq_iff hpositive.ne').mpr ⟨by omega, by omega⟩)
  have hbiased : ((scale : ℤ) - 1075 + (1023 : ℕ) + (52 : ℕ)).toNat = scale := by omega
  rw [pack_finite, hbiased, if_neg (by omega), if_pos hlog]
  refine packComponents_eq hsign ?_ ?_
  · rw [BitVec.toNat_ofNat, hscale, Nat.mod_mod]
  · rw [BitVec.toNat_ofNat]
    omega

/-- A number without a leading digit is packed with the least exponent. -/
theorem pack_subnormal {bits : BitVec 64} {sign : Sign}
    (hsign : sign.toBitVec.toNat = bits.toNat / 2 ^ 63 % 2)
    (hscale : bits.toNat / 2 ^ 52 % 2 ^ 11 = 0) (hpositive : 0 < bits.toNat % 2 ^ 52) :
    UnpackedFloat.pack .binary64 (.finite sign (bits.toNat % 2 ^ 52) (-1074) hpositive)
      = bits := by
  have hfraction : bits.toNat % 2 ^ 52 < 2 ^ 52 := Nat.mod_lt _ (by decide)
  have hlog : ¬ (bits.toNat % 2 ^ 52).log2 + 1 = 53 := by
    have := (Nat.log2_lt hpositive.ne').mpr hfraction
    omega
  rw [pack_finite, if_neg (by decide), if_neg hlog]
  refine packComponents_eq hsign ?_ ?_
  · rw [hscale]
    rfl
  · rw [BitVec.toNat_ofNat, Nat.mod_mod]

/-- **BITS**: packing the parts of a finite number gives its bits. -/
theorem pack_of_finite {bits : BitVec 64} {negative : Bool} {mantissa : ℕ} {exponent : ℤ}
    (h : Binary64.ofBits bits.toNat = .finite negative mantissa exponent) :
    UnpackedFloat.pack .binary64 (unpackedOf negative mantissa exponent) = bits := by
  obtain ⟨rfl, ⟨hscale, rfl, rfl⟩ | ⟨hlow, hhigh, rfl, rfl⟩⟩ := ofBits_eq_finite h
  · by_cases positive : 0 < bits.toNat % 2 ^ 52
    · rw [unpackedOf_of_pos positive]
      exact pack_subnormal (toNat_signOf _) hscale positive
    · rw [unpackedOf_of_not_pos positive]
      exact packComponents_eq (toNat_signOf _) hscale.symm (Nat.eq_zero_of_not_pos positive).symm
  · have positive : 0 < 2 ^ 52 + bits.toNat % 2 ^ 52 := by omega
    rw [unpackedOf_of_pos positive]
    exact pack_normal (toNat_signOf _) rfl hhigh positive

/-! ## Reading -/

/-- The binary64 number that a decimal with a sign is read as. -/
def readDecimal (negative : Bool) (coefficient : ℕ) (exponent : ℤ) : Float :=
  let magnitude := UnpackedFloat.ofScientific .binary64 coefficient exponent
  .ofModel (.pack (if negative then magnitude.neg else magnitude))

/-- A decimal that is read as the parts of a finite number is read as that number. -/
theorem readDecimal_eq {x : Float} {negative : Bool} {mantissa : ℕ} {exponent : ℤ}
    (h : Binary64.ofFloat x = .finite negative mantissa exponent) {coefficient : ℕ} {tens : ℤ}
    (hread : UnpackedFloat.ofScientific .binary64 coefficient tens
      = unpackedOf false mantissa exponent) :
    readDecimal negative coefficient tens = x := by
  obtain ⟨⟨⟨bits⟩, hvalid⟩⟩ := x
  have hsigned : (if negative then (unpackedOf false mantissa exponent).neg
      else unpackedOf false mantissa exponent) = unpackedOf negative mantissa exponent := by
    cases negative with
    | false => rfl
    | true =>
        rw [if_pos rfl]
        by_cases positive : 0 < mantissa
        · rw [unpackedOf_of_pos positive, unpackedOf_of_pos positive]
          rfl
        · rw [unpackedOf_of_not_pos positive, unpackedOf_of_not_pos positive]
          rfl
  show Float.ofModel (.pack (if negative then (UnpackedFloat.ofScientific _ _ _).neg
    else UnpackedFloat.ofScientific _ _ _)) = _
  rw [hread, hsigned]
  have hbits := pack_of_finite h
  have hmodel : ∀ {b : UInt64} (hb : Format.binary64.Valid b.toBitVec), b = ⟨bits⟩ →
      Float.Model.mk b hb = ⟨⟨bits⟩, hvalid⟩ := by
    rintro _ hb rfl
    rfl
  exact congrArg Float.ofModel (hmodel _ (congrArg UInt64.ofBitVec hbits))

/-! ## Scientific decimals -/

/-- The number that a decimal in scientific form stands for. -/
def Scientific.number (d : Scientific) : ℚ :=
  decimalValue (Numeral.value d.digits) (d.exponent + 1 - d.digits.length)

/-- The number of two rows of digits, one after the other. -/
theorem Numeral.value_append (digits more : List Char) :
    Numeral.value (digits ++ more)
      = Numeral.value digits * 10 ^ more.length + Numeral.value more := by
  rw [Numeral.value, Nat.ofDigitChars_append, Nat.ofDigitChars_eq_ofDigitChars_zero,
    Nat.mul_comm]
  rfl

theorem Numeral.value_replicate_zero (n : ℕ) : Numeral.value (List.replicate n '0') = 0 := by
  rw [Numeral.value, Nat.ofDigitChars_replicate_zero, Nat.mul_zero]

/-- What is trimmed off are zeros. -/
theorem trimZeros_append (digits : List Char) :
    ∃ n, digits = trimZeros digits ++ List.replicate n '0' := by
  refine ⟨(digits.reverse.takeWhile (· = '0')).length, ?_⟩
  have hzeros : digits.reverse.takeWhile (· = '0')
      = List.replicate (digits.reverse.takeWhile (· = '0')).length '0' :=
    List.eq_replicate_of_mem fun c hc =>
      of_decide_eq_true (List.all_eq_true.mp List.all_takeWhile c hc)
  have hsplit := congrArg List.reverse (List.takeWhile_append_dropWhile (p := (· = '0'))
    (l := digits.reverse))
  rw [List.reverse_append, List.reverse_reverse, hzeros, List.reverse_replicate] at hsplit
  exact hsplit.symm

/-- The number of a shortest decimal, counted in units of its span. -/
theorem number_shortestDecimal (tie : Tie) {mantissa : ℕ} (exponent : ℤ)
    (positive : 0 < mantissa) :
    (shortestDecimal tie mantissa exponent).number
      = (((Span.ofBinary mantissa exponent positive).shortest tie).1
          * Nat.pow 10 ((Span.ofBinary mantissa exponent positive).shortest tie).2 : ℕ)
        * 10 ^ (-(Span.ofBinary mantissa exponent positive).scale : ℤ) := by
  rw [shortestDecimal, dif_pos positive]
  generalize Span.ofBinary mantissa exponent positive = s
  dsimp only
  obtain ⟨n, places⟩ := s.shortest tie
  dsimp only
  obtain ⟨zeros, hzeros⟩ := trimZeros_append (Numeral.ofNat n)
  have hlength : (Numeral.ofNat n).length = (trimZeros (Numeral.ofNat n)).length + zeros := by
    have := congrArg List.length hzeros
    rwa [List.length_append, List.length_replicate] at this
  have hvalue : n = Numeral.value (trimZeros (Numeral.ofNat n)) * 10 ^ zeros := by
    have := congrArg Numeral.value hzeros
    rwa [Numeral.value_ofNat, Numeral.value_append, Numeral.value_replicate_zero,
      List.length_replicate, Nat.add_zero] at this
  have hexponent : ((Numeral.ofNat n).length : ℤ) - 1 + places - s.scale + 1
      - (trimZeros (Numeral.ofNat n)).length = (zeros : ℤ) + places + -(s.scale : ℤ) := by
    omega
  show decimalValue (Numeral.value (trimZeros (Numeral.ofNat n))) _ = _
  rw [hexponent, decimalValue, zpow_add₀ (by norm_num), zpow_add₀ (by norm_num), zpow_natCast,
    zpow_natCast, Nat.pow_eq]
  conv_rhs => rw [hvalue]
  push_cast
  ring

/-- The unit of a span, counted in quarters of the last place. -/
theorem unit_ofBinary (exponent : ℤ) :
    ((Nat.pow 5 (-(exponent - 2)).toNat * Nat.pow 2 (exponent - 2).toNat : ℕ) : ℚ)
      * 10 ^ (-((-(exponent - 2)).toNat : ℤ)) = 2 ^ (exponent - 2) := by
  rcases Int.le_total 0 (exponent - 2) with hup | hdown
  · obtain ⟨k, hk⟩ := Int.eq_ofNat_of_zero_le hup
    rw [hk]
    simp
  · obtain ⟨k, hk⟩ : ∃ k : ℕ, exponent - 2 = -k := ⟨(-(exponent - 2)).toNat, by omega⟩
    rw [hk]
    have hneg : (- -(k : ℤ)).toNat = k := by omega
    have hzero : (-(k : ℤ)).toNat = 0 := by omega
    rw [hneg, hzero, zpow_neg, zpow_neg, zpow_natCast, zpow_natCast, Nat.pow_eq, Nat.pow_eq,
      Nat.pow_zero, Nat.mul_one]
    push_cast
    rw [← div_eq_mul_inv, show (10 : ℚ) = 5 * 2 by norm_num, mul_pow]
    field_simp

/-- A number of quarters of the last place, counted in the unit of the span. -/
theorem quarters_ofBinary (exponent : ℤ) (k : ℕ) :
    (k : ℚ) * 2 ^ (exponent - 2)
      = ((k * (Nat.pow 5 (-(exponent - 2)).toNat * Nat.pow 2 (exponent - 2).toNat) : ℕ) : ℚ)
        * 10 ^ (-((-(exponent - 2)).toNat : ℤ)) := by
  rw [← unit_ofBinary, ← mul_assoc]
  push_cast
  ring

/-- What lies in the span of a number is not beyond its ends, and is neither of them if
    the number is odd. -/
theorem bounds_of_inside {mantissa : ℕ} {exponent : ℤ} (positive : 0 < mantissa) {n : ℕ}
    (h : (Span.ofBinary mantissa exponent positive).inside n = true) :
    (Span.ofBinary mantissa exponent positive).low ≤ n
      ∧ n ≤ (Span.ofBinary mantissa exponent positive).high
      ∧ (mantissa % 2 = 1 → (Span.ofBinary mantissa exponent positive).low ≠ n
        ∧ n ≠ (Span.ofBinary mantissa exponent positive).high) := by
  have hclosed : (Span.ofBinary mantissa exponent positive).closed
      = decide (mantissa % 2 = 0) := rfl
  rw [Span.inside, hclosed] at h
  split at h
  · rename_i heven
    have heven := of_decide_eq_true heven
    obtain ⟨hl, hh⟩ := of_decide_eq_true h
    exact ⟨hl, hh, fun hodd => by omega⟩
  · obtain ⟨hl, hh⟩ := of_decide_eq_true h
    exact ⟨hl.le, hh.le, fun _ => ⟨hl.ne, hh.ne⟩⟩

/-- **IN THE SPAN**: what lies in the span of a number is read as it. -/
theorem readsBack_of_inside {mantissa : ℕ} {exponent : ℤ} (positive : 0 < mantissa) {n : ℕ}
    (h : (Span.ofBinary mantissa exponent positive).inside n = true) :
    ReadsBack mantissa exponent
      (n * 10 ^ (-(Span.ofBinary mantissa exponent positive).scale : ℤ)) := by
  have hunit : (0 : ℚ) < 10 ^ (-((-(exponent - 2)).toNat : ℤ)) := zpow_pos (by norm_num) _
  have hreach : reachBelow mantissa exponent ≤ 4 * mantissa := by
    have := reachBelow_le mantissa exponent
    omega
  have hlow : ((4 * mantissa - reachBelow mantissa exponent : ℤ) : ℚ) * 2 ^ (exponent - 2)
      = ((Span.ofBinary mantissa exponent positive).low : ℚ)
        * 10 ^ (-((-(exponent - 2)).toNat : ℤ)) := by
    refine Eq.trans ?_ (quarters_ofBinary exponent (4 * mantissa - reachBelow mantissa exponent))
    push_cast [hreach]
    rfl
  have hhigh : ((4 * mantissa + 2 : ℤ) : ℚ) * 2 ^ (exponent - 2)
      = ((Span.ofBinary mantissa exponent positive).high : ℚ)
        * 10 ^ (-((-(exponent - 2)).toNat : ℤ)) := by
    refine Eq.trans ?_ (quarters_ofBinary exponent (4 * mantissa + 2))
    push_cast
    rfl
  obtain ⟨hl, hh, hodd⟩ := bounds_of_inside positive h
  refine ⟨?_, ?_, fun hmod => ⟨?_, ?_⟩⟩
  · rw [hlow]
    exact mul_le_mul_of_nonneg_right (by exact_mod_cast hl) hunit.le
  · rw [hhigh]
    exact mul_le_mul_of_nonneg_right (by exact_mod_cast hh) hunit.le
  · rw [hlow]
    exact fun heq => (hodd hmod).1 (by exact_mod_cast mul_right_cancel₀ hunit.ne' heq)
  · rw [hhigh]
    exact fun heq => (hodd hmod).2 (by exact_mod_cast mul_right_cancel₀ hunit.ne' heq)

/-- The shortest decimal of a number is read as it. -/
theorem readsBack_shortestDecimal (tie : Tie) {mantissa : ℕ} (exponent : ℤ)
    (positive : 0 < mantissa) :
    ReadsBack mantissa exponent (shortestDecimal tie mantissa exponent).number := by
  rw [number_shortestDecimal tie exponent positive]
  exact readsBack_of_inside positive (Span.inside_shortest _ tie)

/-- **READ BACK**: every decimal of the same size as the shortest decimal of a finite
    number, and with its sign, is read as that number. -/
theorem readDecimal_of_shortest {x : Float} {negative : Bool} {mantissa : ℕ} {exponent : ℤ}
    (h : Binary64.ofFloat x = .finite negative mantissa exponent) {tie : Tie}
    {coefficient : ℕ} {tens : ℤ}
    (hsame : decimalValue coefficient tens = (shortestDecimal tie mantissa exponent).number) :
    readDecimal negative coefficient tens = x := by
  have hten : (0 : ℚ) < 10 ^ tens := zpow_pos (by norm_num) _
  refine readDecimal_eq h ?_
  by_cases positive : 0 < mantissa
  · have hback := readsBack_shortestDecimal tie exponent positive
    rw [← hsame] at hback
    have hnumber := canonical_of_finite h positive
    have hcoefficient : 0 < coefficient := by
      refine Nat.pos_of_ne_zero fun hzero => ?_
      have hleast := hback.half_least hnumber
      rw [hzero, decimalValue, Nat.cast_zero, zero_mul] at hleast
      exact absurd (zpow_pos (by norm_num) _) (not_lt.mpr hleast)
    rw [unpackedOf_of_pos positive]
    exact ofScientific_of_readsBack hcoefficient hnumber hback
  · have hzero : coefficient = 0 := by
      rw [shortestDecimal, dif_neg positive] at hsame
      have hnone : (⟨['0'], 0⟩ : Scientific).number = 0 := by
        rw [Scientific.number, decimalValue]
        exact mul_eq_zero_of_left rfl _
      rw [hnone, decimalValue] at hsame
      exact_mod_cast (mul_eq_zero.mp hsame).resolve_right hten.ne'
    rw [unpackedOf_of_not_pos positive, hzero]
    rfl

end RunTimings
